/-!
# Rejections

Why an instruction is refused.  A rejection blames one field where it can.
-/

namespace OperandReport

/-- The kinds of rejection. -/
inductive Rejection.Kind where
  /-- the opcode is not known to the architecture -/
  | unknownOpcode
  /-- a field has the wrong kind of content for its slot -/
  | misfit
  /-- a register slot names a register that does not exist -/
  | unknownRegister
  /-- the number of fields does not suit the opcode -/
  | fieldCount
  /-- detail was asked for and is not there -/
  | withoutDetail
  deriving DecidableEq, Repr, Inhabited

/-- Why an instruction was refused, and which field is to blame. -/
structure Rejection where
  kind : Rejection.Kind
  field : Option Nat := none
  deriving DecidableEq, Repr, Inhabited

namespace Rejection

/-- The text of a kind of rejection. -/
def Kind.message : Kind → String
  | unknownOpcode => "invalid opcode"
  | misfit => "invalid operand"
  | unknownRegister => "invalid register"
  | fieldCount => "operand count doesn't match the operand table"
  | withoutDetail => "instruction was decoded without detail"

/-- A rejection that blames field `i`; the index is kept as a byte. -/
def blaming (kind : Kind) (i : Nat) : Rejection := ⟨kind, some (i % 256)⟩

/-- The text of a rejection. -/
def message (r : Rejection) : String :=
  match r.field with
  | none => r.kind.message
  | some i => s!"{r.kind.message} (operand {i})"

end Rejection

end OperandReport
