/-!
# Faults

A fault is a broken rule inside the assembly of a report: too many operands, a
look-back past the first one, a memory operand closed before it was opened.  It
ends the run.  Some faults are also written to the journal.
-/

namespace OperandReport

/-- A broken rule that ends the run. -/
inductive Fault where
  /-- no operand fits any more -/
  | operandsFull (capacity : Nat)
  /-- there is no operand at this distance from the end -/
  | operandMissing (offset : Int) (count : Nat) (isOpen : Bool)
  /-- no further register or group fits into a set -/
  | setFull (capacity : Nat)
  /-- an operand was added while a memory operand was open -/
  | addedWhileOpen
  /-- a memory operand was opened inside another one -/
  | openedTwice
  /-- a memory operand was used or closed while none was open -/
  | notOpen
  /-- the operand that is open is no memory operand -/
  | openOperandNotMemory
  /-- the report was finished with a memory operand open -/
  | leftOpen (opcode : String)
  /-- a register class has no register of that number -/
  | registerNumber
  /-- there is no register pair that starts at that number -/
  | registerPair
  deriving DecidableEq, Repr

namespace Fault

/-- The text of a fault. -/
def message : Fault → String
  | operandsFull capacity =>
    s!"[decoder::operands] operand array is full ({capacity} operands)"
  | operandMissing offset count isOpen =>
    s!"[decoder::operands] operand offset {offset} out of bounds (len {count}, open {isOpen})"
  | setFull capacity => s!"[decoder::lists] id list is full ({capacity} entries)"
  | addedWhileOpen => "operand pushed while a memory operand is open"
  | openedTwice => "memory operand opened twice"
  | notOpen => "no memory operand is open"
  | openOperandNotMemory => "open operand isn't a memory operand"
  | leftOpen opcode => s!"{opcode} left a memory operand open"
  | registerNumber => "register number out of range"
  | registerPair => "register pair out of range"

/-- The fault is written to the journal before it ends the run. -/
def isJournaled : Fault → Bool
  | operandsFull _ | operandMissing .. | setFull _ => true
  | _ => false

end Fault

end OperandReport
