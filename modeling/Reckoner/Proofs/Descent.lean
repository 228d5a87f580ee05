import Reckoner.Proofs.Recursion

namespace Reckoner

variable {α β γ : Type}

/-- What a call of the recursive reader comes to: its reading, and how many extensions were made in
it and in all the calls that it made. -/
structure Descent (α β : Type) where
  reading : Reading α β
  extensions : Nat

namespace Descent

/-- A call that may make so many extensions. It has no outcome if it would need more. -/
abbrev Call (α β : Type) := Nat → Parser → Option (Descent α β)

/-- A reading that no extension was needed for. -/
def found (reading : Reading α β) : Option (Descent α β) :=
  some ⟨reading, 0⟩

/-- What follows a call that went well is told how many extensions were made in it. -/
def andThen (first : Option (Descent α β)) (next : β → Nat → Parser → Option (Descent α γ)) :
    Option (Descent α γ) :=
  first.bind fun before =>
    match before.reading.result with
    | .error fault => some { before with reading := { before.reading with result := .error fault } }
    | .ok value =>
      (next value before.extensions before.reading.parser).map fun after =>
        ⟨after.reading.behind before.reading.folds, before.extensions + after.extensions⟩

/-- A call comes to this reading with just so many extensions and levels of calls in one another:
with fewer of either it has no outcome. -/
def Costs (call : Nat → Nat → Option (Descent α β)) (reading : Reading α β)
    (extensions levels : Nat) : Prop :=
  ∀ stack budget, call stack budget =
    if levels ≤ stack ∧ extensions ≤ budget then some ⟨reading, extensions⟩ else none

section Costs

variable {call : Nat → Nat → Option (Descent α β)} {reading : Reading α β}
  {next : Nat → Nat → β → Parser → Option (Descent α γ)} {following : β → Parser → Reading α γ}
  {extensions later levels deeper : Nat}

theorem Costs.andThen_error {fault : Fault} (costs : Costs call reading extensions levels)
    (failed : reading.result = .error fault) :
    Costs (fun stack budget => andThen (call stack budget) fun value made left =>
      next stack (budget - made) value left) (reading.andThen following) extensions levels := by
  intro stack budget
  dsimp only
  rw [costs stack budget, Reading.andThen_of_error following failed]
  split <;> simp [andThen, failed]

/-- The extensions of two calls add up, and the deeper one tells how deep they are. -/
theorem Costs.andThen_ok {value : β} (costs : Costs call reading extensions levels)
    (ok : reading.result = .ok value)
    (costs' : Costs (fun stack budget => next stack budget value reading.parser)
      (following value reading.parser) later deeper) :
    Costs (fun stack budget => andThen (call stack budget) fun value made left =>
      next stack (budget - made) value left) (reading.andThen following) (extensions + later)
      (max levels deeper) := by
  intro stack budget
  have enough : max levels deeper ≤ stack ∧ extensions + later ≤ budget ↔
      (levels ≤ stack ∧ extensions ≤ budget) ∧ deeper ≤ stack ∧ later ≤ budget - extensions := by
    omega
  have after := costs' stack (budget - extensions)
  dsimp only at after ⊢
  rw [costs stack budget, Reading.andThen_of_ok following ok]
  by_cases first : levels ≤ stack ∧ extensions ≤ budget
  · simp only [enough, first, and_self, true_and, if_true, andThen, Option.bind_some, ok, after]
    split <;> rfl
  · rw [if_neg first, if_neg fun whole => first (enough.mp whole).1]
    rfl

end Costs

/-- What a reading of so many tokens may spend. Each extension is paid for by a token that has been
taken, and some are to spare where the reading goes well, which also leaves the depth as it was. -/
structure Affords (reading : Reading α β) (extensions tokens depth : Nat) (spare : β → Nat) :
    Prop where
  spent : reading.parser.unread.length + extensions ≤ tokens
  spared : ∀ value, reading.result = .ok value →
    reading.parser.unread.length + extensions + spare value ≤ tokens
  restored : ∀ value, reading.result = .ok value → reading.parser.depth = depth

/-- A call comes to this reading, on so many levels at most, and with what the tokens afford. -/
def Settles (call : Nat → Nat → Option (Descent α β)) (reading : Reading α β)
    (tokens depth levels : Nat) (spare : β → Nat) : Prop :=
  ∃ extensions deep, Costs call reading extensions deep ∧ deep ≤ levels ∧
    Affords reading extensions tokens depth spare

section Settles

variable {call : Nat → Nat → Option (Descent α β)} {reading : Reading α β}
  {tokens depth levels more : Nat} {spare other : β → Nat}

theorem settles_found (within : reading.parser.unread.length ≤ tokens)
    (spared : ∀ value, reading.result = .ok value →
      reading.parser.unread.length + spare value ≤ tokens ∧ reading.parser.depth = depth) :
    Settles (fun _ _ => found reading) reading tokens depth levels spare := by
  refine ⟨0, 0, fun stack budget => ?_, Nat.zero_le _, within, fun value ok => (spared value ok).1,
    fun value ok => (spared value ok).2⟩
  simp [found]

theorem settles_failed {fault : Fault} {parser : Parser} (within : parser.unread.length ≤ tokens) :
    Settles (fun _ _ => found ⟨.error fault, parser, []⟩) (⟨.error fault, parser, []⟩ : Reading α β)
      tokens depth levels spare :=
  settles_found within nofun

theorem Settles.mono (settles : Settles call reading tokens depth levels spare)
    (longer : tokens ≤ more)
    (spared : ∀ value, reading.result = .ok value → tokens + other value ≤ more + spare value) :
    Settles call reading more depth levels other := by
  obtain ⟨extensions, deep, costs, within, affords⟩ := settles
  refine ⟨extensions, deep, costs, within, Nat.le_trans affords.spent longer, ?_, affords.restored⟩
  intro value ok
  have left := affords.spared value ok
  have allowed := spared value ok
  omega

/-- What follows a call has what the call has spared, and is told what it has spent. -/
theorem Settles.andThen {following : β → Parser → Reading α γ} {spare' : γ → Nat} {depth' : Nat}
    (first : Settles call reading tokens depth levels spare)
    (next : Nat → Nat → β → Parser → Option (Descent α γ))
    (second : ∀ value, reading.result = .ok value → reading.parser.depth = depth →
      reading.parser.unread.length + spare value ≤ tokens →
      Settles (fun stack budget => next stack budget value reading.parser)
        (following value reading.parser) (reading.parser.unread.length + spare value) depth' levels
        spare') :
    Settles (fun stack budget => andThen (call stack budget) fun value made left =>
      next stack (budget - made) value left) (reading.andThen following) tokens depth' levels
      spare' := by
  obtain ⟨made, deep, costs, within, affords⟩ := first
  cases result : reading.result with
  | error fault =>
    refine ⟨made, deep, costs.andThen_error result, within, ?_⟩
    rw [Reading.andThen_of_error following result]
    exact ⟨affords.spent, nofun, nofun⟩
  | ok value =>
    have left := affords.spared value result
    obtain ⟨later, deeper, costs', within', affords'⟩ :=
      second value result (affords.restored value result) (by omega)
    refine ⟨made + later, max deep deeper, costs.andThen_ok result costs',
      Nat.max_le.mpr ⟨within, within'⟩, ?_⟩
    rw [Reading.andThen_of_ok following result]
    refine ⟨?_, fun value' ok => ?_, affords'.restored⟩
    · have spent := affords'.spent
      simp only [Reading.behind]
      omega
    · have spared := affords'.spared value' ok
      simp only [Reading.behind]
      omega

/-- One more extension is made, for which one more token has to be there. -/
theorem Settles.extended {outer : Nat → Nat → Option (Descent α β)}
    (settles : Settles call reading tokens depth levels spare)
    (none : ∀ stack, outer stack 0 = none)
    (some : ∀ stack budget, outer stack (budget + 1) =
      (call stack budget).map fun rest => { rest with extensions := rest.extensions + 1 }) :
    Settles outer reading (tokens + 1) depth levels spare := by
  obtain ⟨extensions, deep, costs, within, affords⟩ := settles
  refine ⟨extensions + 1, deep, fun stack budget => ?_, within, ?_, ?_, affords.restored⟩
  · cases budget with
    | zero => simp [none]
    | succ budget =>
      simp only [some, costs stack budget, Nat.add_le_add_iff_right]
      split <;> rfl
  · exact Nat.succ_le_succ affords.spent
  · intro value ok
    have spared := affords.spared value ok
    omega

/-- A call inside another one is one level deeper than that. -/
theorem Settles.deeper {outer : Nat → Nat → Option (Descent α β)}
    (settles : Settles call reading tokens depth levels spare)
    (none : ∀ budget, outer 0 budget = none)
    (some : ∀ stack budget, outer (stack + 1) budget = call stack budget) :
    Settles outer reading tokens depth (levels + 1) spare := by
  obtain ⟨extensions, deep, costs, within, affords⟩ := settles
  refine ⟨extensions, deep + 1, fun stack budget => ?_, Nat.succ_le_succ within, affords⟩
  cases stack with
  | zero => simp [none]
  | succ stack => simp only [some, costs stack budget, Nat.add_le_add_iff_right]

end Settles

variable [Arithmetic α]

/-- Reads the expression in a group by a call of its own, one level deeper. The opening parenthesis
has been taken. -/
def group (inside : Call α α) : Call α α := fun budget parser =>
  if nestingLimit ≤ parser.depth then found ⟨.error .nestingTooDeep, parser, []⟩
  else
    andThen (inside budget { parser with depth := parser.depth + 1 }) fun value _ left =>
      found ⟨.ok value, { left with depth := left.depth - 1 }, []⟩

/-- Reads a number or a group, behind its sign if it has one. -/
def primary (inside : Call α α) (negated : Bool) : Call α α := fun budget parser =>
  match parser.unread with
  | [] => found ⟨.error .missingOperandAfterMinus, parser, []⟩
  | .opening :: rest =>
    andThen (group inside budget { parser with unread := rest }) fun value _ left =>
      found ⟨.ok (signed negated value), left, []⟩
  | .number lexeme :: rest =>
    match Arithmetic.read? lexeme with
    | some value => found ⟨.ok (signed negated value), { parser with unread := rest }, []⟩
    | none => found ⟨.error (.invalidNumber lexeme), { parser with unread := rest }, []⟩
  | token :: rest => found ⟨.error (.tokenForOperand token), { parser with unread := rest }, []⟩

def operand (inside : Call α α) : Call α α := fun budget parser =>
  match parser.unread with
  | [] => found ⟨.error .missingOperand, parser, []⟩
  | .operator symbol :: rest =>
    if Operation.ofSymbol? symbol = some .sub then
      primary inside true budget { parser with unread := rest }
    else found ⟨.error (.operatorForOperand symbol), parser, []⟩
  | _ => primary inside false budget parser

/-- Reads one operator and its right operand after the formula `lhs`. -/
def extension (inside : Call α α) (lhs : Formula α) : Call α (Extension α) := fun budget parser =>
  match parser.unread with
  | [] => found ⟨.ok (.ended lhs), parser, []⟩
  | .closing :: rest => found ⟨.ok (.closed lhs), { parser with unread := rest }, []⟩
  | .operator symbol :: rest =>
    match Operation.ofSymbol? symbol with
    | none => found ⟨.error (.unknownOperator symbol), { parser with unread := rest }, []⟩
    | some op =>
      andThen (operand inside budget { parser with unread := rest }) fun value _ left =>
        found (((Slot.after lhs op).place value left).map .continued)
  | token :: rest => found ⟨.error (.tokenForOperator token), { parser with unread := rest }, []⟩

/-- An expression goes on by `again` as long as it is extended. Its end has to fit the groups that
are open. -/
def proceed (again : Formula α → Option (Descent α (Formula α))) (extension : Extension α)
    (left : Parser) : Option (Descent α (Formula α)) :=
  match extension with
  | .continued formula => again formula
  | .ended formula =>
    found ⟨if left.depth = 0 then .ok formula else .error .missingClosing, left, []⟩
  | .closed formula =>
    found ⟨if left.depth = 0 then .error .unmatchedClosing else .ok formula, left, []⟩

/-- Makes one extension of a formula after the other, up to the end of the expression. -/
def remainder (inside : Call α α) (lhs : Formula α) (budget : Nat) (parser : Parser) :
    Option (Descent α (Formula α)) :=
  match budget with
  | 0 => none
  | budget + 1 =>
    let rest := andThen (extension inside lhs budget parser) fun extension made left =>
      proceed (fun formula => remainder inside formula (budget - made) left) extension left
    rest.map fun rest => { rest with extensions := rest.extensions + 1 }
termination_by budget

/-- Reads an expression by a call with so much room on the stack, where each call for an expression
in a group takes one place more. It has no outcome if they would need more. -/
def expression : Nat → Call α α
  | 0 => fun _ _ => none
  | stack + 1 => fun budget parser =>
    if parser.unread = [] then found ⟨.error .missingExpression, parser, []⟩
    else
      andThen (operand (expression stack) budget parser) fun value made left =>
        andThen (remainder (expression stack) (.literal value) (budget - made) left)
          fun formula _ left => found ⟨.ok formula.evaluate, left, []⟩

end Descent

end Reckoner
