import Reckoner.Binary64
import Reckoner.CommandLine
import Reckoner.Decimal
import Reckoner.Evaluation
import Reckoner.Formula
import Reckoner.Main
import Reckoner.Outcome
import Reckoner.Parser
import Reckoner.Proofs.Binary64.Bits
import Reckoner.Proofs.Binary64.Nearest
import Reckoner.Proofs.Binary64.Rounding
import Reckoner.Proofs.Binary64.Shortest
import Reckoner.Proofs.Binary64.Spelling
import Reckoner.Proofs.Binary64.Value
import Reckoner.Proofs.Binary64.Words
import Reckoner.Proofs.Comb
import Reckoner.Proofs.Composition
import Reckoner.Proofs.Concatenation
import Reckoner.Proofs.Conversation
import Reckoner.Proofs.Cursor
import Reckoner.Proofs.Depth
import Reckoner.Proofs.Descent
import Reckoner.Proofs.Description
import Reckoner.Proofs.Display
import Reckoner.Proofs.Enclosure
import Reckoner.Proofs.Evaluate
import Reckoner.Proofs.Extension
import Reckoner.Proofs.Grammar
import Reckoner.Proofs.Interchange
import Reckoner.Proofs.Leftover
import Reckoner.Proofs.Legibility
import Reckoner.Proofs.Leniency
import Reckoner.Proofs.Limits
import Reckoner.Proofs.Listing
import Reckoner.Proofs.Literal
import Reckoner.Proofs.Log
import Reckoner.Proofs.Maximality
import Reckoner.Proofs.Munching
import Reckoner.Proofs.Nesting
import Reckoner.Proofs.Numeral
import Reckoner.Proofs.Operand
import Reckoner.Proofs.Partition
import Reckoner.Proofs.Places
import Reckoner.Proofs.Positional
import Reckoner.Proofs.Printing
import Reckoner.Proofs.Products
import Reckoner.Proofs.Pursuit
import Reckoner.Proofs.Reach
import Reckoner.Proofs.Readability
import Reckoner.Proofs.Recursion
import Reckoner.Proofs.Respelling
import Reckoner.Proofs.Scanning
import Reckoner.Proofs.Separation
import Reckoner.Proofs.Viability
import Reckoner.Record
import Reckoner.Scanner
import Reckoner.Session
import Reckoner.Token
