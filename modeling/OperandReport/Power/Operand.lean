import OperandReport.Access
import OperandReport.Instruction
import OperandReport.Power.Register

/-!
# PowerPC operands

An operand as it is reported: its value and its access.
-/

namespace OperandReport.Power

/-- A memory operand. -/
structure Memory where
  /-- absent when the base reads as zero -/
  base : Register := .none
  /-- the second register of an indexed form -/
  index : Register := .none
  displacement : Imm := 0
  deriving DecidableEq, Repr, Inhabited

/-- What an operand is. -/
inductive Value where
  | unset
  | register (r : Register)
  | immediate (value : Imm)
  | memory (m : Memory)
  deriving DecidableEq, Repr, Inhabited

/-- One reported operand. -/
structure Operand where
  value : Value := .unset
  access : Access := .neither
  deriving DecidableEq, Repr, Inhabited

/-- An immediate operand, which is read. -/
def Operand.ofImmediate (v : Imm) : Operand := ⟨.immediate v, .reads⟩

end OperandReport.Power
