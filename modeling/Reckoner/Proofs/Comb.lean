import Reckoner.Proofs.Extension

namespace Reckoner

variable {α : Type}

namespace Formula

/-- A number, to which others are added or from which they are subtracted one after the other. -/
inductive IsComb : Formula α → Prop
  | literal {value} : IsComb (.literal value)
  | binary {lhs op value} : IsComb lhs → op = .add ∨ op = .sub →
      IsComb (.binary lhs op (.literal value))

/-- The number of operations in a formula. -/
def binaries : Formula α → Nat
  | literal _ => 0
  | binary lhs _ rhs => lhs.binaries + rhs.binaries + 1

variable [Arithmetic α] {lhs : Formula α}

/-- A product goes into the last number of a comb, which is a right operand or all there is. -/
theorem IsComb.applyRightmost (comb : lhs.IsComb) (op : Operation) (x : α) :
    (lhs.applyRightmost op x).IsComb := by
  cases comb with
  | literal => exact .literal
  | binary comb additive => exact .binary comb additive

theorem binaries_applyRightmost (op : Operation) (x : α) (lhs : Formula α) :
    (lhs.applyRightmost op x).binaries = lhs.binaries := by
  induction lhs with
  | literal value => rfl
  | binary first top last _ ih => rw [applyRightmost, binaries, ih, binaries]

/-- A comb stays one behind an operand, and sums alone make it grow. -/
theorem IsComb.fill_after (comb : lhs.IsComb) (op : Operation) (value : α) :
    ((Slot.after lhs op).fill value).IsComb ∧
      ((Slot.after lhs op).fill value).binaries =
        lhs.binaries + if op.isMultiplicative then 0 else 1 := by
  cases op with
  | add => exact ⟨.binary comb (Or.inl rfl), rfl⟩
  | sub => exact ⟨.binary comb (Or.inr rfl), rfl⟩
  | mul => exact ⟨comb.applyRightmost .mul value, binaries_applyRightmost .mul value lhs⟩
  | div => exact ⟨comb.applyRightmost .div value, binaries_applyRightmost .div value lhs⟩

end Formula

/-- The formula that an extension returns. -/
def Extension.formula : Extension α → Formula α
  | continued formula | ended formula | closed formula => formula

def Token.isAdditive (token : Token) : Bool :=
  token = .operator "+" || token = .operator "-"

theorem Token.isAdditive_symbol (op : Operation) :
    (Token.operator (String.singleton op.symbol)).isAdditive = !op.isMultiplicative := by
  cases op <;> decide

namespace Slot

/-- The formula that waits in a slot for its right operand. -/
def formulas : Slot α → List (Formula α)
  | first => []
  | after lhs _ => [lhs]

variable [Arithmetic α] {slot : Slot α}

theorem isComb_fill (combs : ∀ formula ∈ slot.formulas, formula.IsComb) (value : α) :
    (slot.fill value).IsComb := by
  cases slot with
  | first => exact .literal
  | after lhs op => exact ((combs lhs (List.mem_singleton.mpr rfl)).fill_after op value).1

end Slot

def Position.formulas : Position α → List (Formula α)
  | operand slot | signed slot => slot.formulas
  | operator lhs => [lhs]

@[simp] theorem Position.formulas_primary (slot : Slot α) (negated : Bool) :
    (Position.primary slot negated).formulas = slot.formulas := by
  cases negated <;> rfl

namespace State

/-- All the formulas that a reader holds: the one it is at, and those that wait outside its open
groups. -/
def formulas (state : State α) : List (Formula α) :=
  state.position.formulas ++ state.groups.flatMap (·.slot.formulas)

def HoldsCombs (state : State α) : Prop :=
  ∀ formula ∈ state.formulas, formula.IsComb

theorem holdsCombs_iff {outer : Nat} {groups : List (Group α)} {position : Position α} :
    HoldsCombs ⟨outer, groups, position⟩ ↔
      (∀ formula ∈ position.formulas, formula.IsComb) ∧
        ∀ group ∈ groups, ∀ formula ∈ group.slot.formulas, formula.IsComb := by
  simp only [HoldsCombs, formulas, List.forall_mem_append, List.forall_mem_flatMap]

variable [Arithmetic α] {state : State α}

/-- No step makes anything but combs out of combs. -/
theorem Step.holdsCombs {after : State α} {token : Token} {fold : Option (Fold α)}
    (step : Step state token after fold) (combs : state.HoldsCombs) : after.HoldsCombs := by
  cases step with
  | sign => exact combs
  | number _ =>
    obtain ⟨here, outside⟩ := holdsCombs_iff.mp combs
    rw [Position.formulas_primary] at here
    exact holdsCombs_iff.mpr ⟨List.forall_mem_singleton.mpr (Slot.isComb_fill here _), outside⟩
  | opening _ =>
    obtain ⟨here, outside⟩ := holdsCombs_iff.mp combs
    rw [Position.formulas_primary] at here
    exact holdsCombs_iff.mpr ⟨List.forall_mem_nil _, List.forall_mem_cons.mpr ⟨here, outside⟩⟩
  | operator => exact combs
  | closing =>
    obtain ⟨_, outside⟩ := holdsCombs_iff.mp combs
    obtain ⟨waiting, outside⟩ := List.forall_mem_cons.mp outside
    exact holdsCombs_iff.mpr ⟨List.forall_mem_singleton.mpr (Slot.isComb_fill waiting _), outside⟩

theorem Reach.holdsCombs {initial : State α} {tokens : List Token} {folds : List (Fold α)}
    (reach : Reach initial tokens folds state) (combs : initial.HoldsCombs) : state.HoldsCombs := by
  induction reach with
  | start => exact combs
  | next _ step ih => exact step.holdsCombs ih

/-- What a reading ends with is a formula that the reader holds where it ends. -/
theorem isComb_of_read {goal : Goal} {tokens : List Token} {folds : List (Fold α)}
    {formula : Formula α} (combs : state.HoldsCombs)
    (ok : (state.read goal folds tokens).result = .ok formula) : formula.IsComb := by
  have here {outer : Nat} (combs : HoldsCombs ⟨outer, [], .operator formula⟩) : formula.IsComb :=
    combs formula (List.mem_singleton.mpr rfl)
  induction tokens generalizing state folds with
  | nil =>
    rw [atEnd_eq_ok ok] at combs
    exact here combs
  | cons token rest ih =>
    simp only [read] at ok
    split at ok
    · rename_i next fold taken
      have later := (take_eq_onward_iff.mp taken).holdsCombs combs
      split at ok
      · rename_i reached
        cases ok
        cases goal with
        | operand =>
          rw [eq_of_reached? reached] at later
          exact here later
        | expression => cases reached
      · exact ih later ok
    · rename_i taken
      rw [(take_eq_outward taken).2] at combs
      dsimp only at ok
      split at ok
      · cases ok
      · cases ok
        exact here combs
    · cases ok

/-- An operand comes into its slot as a number, also if it is a group. -/
theorem exists_fill_of_read {depth : Nat} {slot : Slot α} {tokens : List Token}
    {folds : List (Fold α)} {formula : Formula α}
    (ok : (read .operand ⟨depth, [], .operand slot⟩ folds tokens).result = .ok formula) :
    ∃ value, formula = slot.fill value := by
  obtain ⟨before, behind, made, last, result, unread, rfl, pursuit, halts⟩ :=
    exists_pursuit .operand (⟨depth, [], .operand slot⟩ : State α) tokens
  rw [pursuit.read_eq halts rfl] at ok
  cases ok
  have outside : last.outer = depth := pursuit.reach.outer_eq
  rw [halts.operand_ok.1, outside] at pursuit
  obtain ⟨value, _, filled⟩ := pursuit.derives
  exact ⟨value, filled⟩

end State

namespace Parser

variable [Arithmetic α]

/-- Extensions one after the other, each of the formula that the one before it returned. The tokens
that they begin with are kept: an operator, behind which its operand is read, or a closing
parenthesis. -/
inductive FedBack (parser : Parser) (lhs : Formula α) : List Token → Parser → Formula α → Prop
  | start : FedBack parser lhs [] parser lhs
  | next {heads middle formula extension} : FedBack parser lhs heads middle formula →
      (middle.extend formula).result = .ok extension →
      FedBack parser lhs (heads ++ middle.unread.head?.toList) (middle.extend formula).parser
        extension.formula

variable {parser left : Parser} {lhs formula : Formula α} {extension : Extension α}

theorem Continues.isComb (continues : parser.Continues lhs extension left) (comb : lhs.IsComb) :
    extension.formula.IsComb ∧
      extension.formula.binaries =
        lhs.binaries + parser.unread.head?.toList.countP Token.isAdditive := by
  cases continues with
  | ended exhausted =>
    rw [exhausted]
    exact ⟨comb, rfl⟩
  | closed closing =>
    rw [closing]
    exact ⟨comb, rfl⟩
  | @continued op operand rest value next split _ goesOn =>
    obtain rfl := Formula.goesOn_iff.mp goesOn
    obtain ⟨grown, count⟩ := comb.fill_after op value
    refine ⟨grown, count.trans ?_⟩
    rw [split, List.head?_cons, Option.toList_some, List.countP_singleton, Token.isAdditive_symbol]
    cases op.isMultiplicative <;> rfl

theorem FedBack.isComb {heads : List Token} (fedBack : parser.FedBack lhs heads left formula)
    (comb : lhs.IsComb) :
    formula.IsComb ∧ formula.binaries = lhs.binaries + heads.countP Token.isAdditive := by
  induction fedBack with
  | start => exact ⟨comb, rfl⟩
  | next _ ok ih =>
    obtain ⟨grown, count⟩ := (continues_of_extend ok).isComb ih.1
    refine ⟨grown, ?_⟩
    rw [count, ih.2, List.countP_append, Nat.add_assoc]

end Parser

/-- Reading builds nothing but combs. An extension of a comb is one, with an operation more for each
sum or difference that the extensions themselves have come to. An operand is a number by the time it
is read, also if it is a group, and is put into its slot as one. And at no moment does a reader hold
any other formula, whatever is read. -/
theorem formulas_are_combs [Arithmetic α] :
    (∀ (parser : Parser) (lhs : Formula α), lhs.IsComb → ∀ heads left formula,
      parser.FedBack lhs heads left formula →
        formula.IsComb ∧ formula.binaries = lhs.binaries + heads.countP Token.isAdditive) ∧
      (∀ depth tokens folds (formula : Formula α),
        (State.read .operand ⟨depth, [], .operand .first⟩ folds tokens).result = .ok formula →
          ∃ value, formula = .literal value) ∧
      ∀ depth (slot : Slot α) tokens folds,
        (∀ formula,
          (State.read .operand ⟨depth, [], .operand slot⟩ folds tokens).result = .ok formula →
            ∃ value, formula = slot.fill value) ∧
        ((∀ lhs ∈ slot.formulas, lhs.IsComb) →
          (∀ state, State.Reach ⟨depth, [], .operand slot⟩ tokens folds state →
            state.HoldsCombs) ∧
          ∀ goal formula,
            (State.read goal ⟨depth, [], .operand slot⟩ folds tokens).result = .ok formula →
              formula.IsComb) := by
  refine ⟨fun parser lhs comb heads left formula fedBack => fedBack.isComb comb,
    fun depth tokens folds formula => State.exists_fill_of_read, ?_⟩
  intro depth slot tokens folds
  refine ⟨fun formula => State.exists_fill_of_read, fun combs => ?_⟩
  have start : State.HoldsCombs ⟨depth, [], .operand slot⟩ :=
    State.holdsCombs_iff.mpr ⟨combs, List.forall_mem_nil _⟩
  exact ⟨fun state reach => reach.holdsCombs start, fun goal formula => State.isComb_of_read start⟩

end Reckoner
