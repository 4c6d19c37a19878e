import OperandReport.Cursor
import OperandReport.Instruction
import OperandReport.OrderedSet
import OperandReport.Power.Branch
import OperandReport.Power.Operand
import OperandReport.Power.Template

/-!
# PowerPC reports

A report says what an instruction does: its operands, the condition it branches
on, and its effects besides.
-/

namespace OperandReport.Power

/-- What an instruction does besides its operands and its condition. -/
structure Effects where
  /-- the result is compared with zero in condition field 0 -/
  recordsResult : Bool := false
  writeback : Bool := false
  reads : OrderedSet Register 20 := .empty
  writes : OrderedSet Register 20 := .empty
  groups : OrderedSet Group 8 := .empty
  deriving DecidableEq, Repr, Inhabited

/-- The most operands that a report holds. -/
def operandCapacity : Nat := 8

/-- The operands, the branch condition and the effects of an instruction. -/
structure Report where
  operands : Cursor Operand operandCapacity := .empty
  condition : Option Condition := none
  effects : Effects := {}
  deriving DecidableEq, Repr, Inhabited

/-- A PowerPC opcode with its fields. -/
abbrev Encoded := OperandReport.Encoded Template

/-- A PowerPC instruction. -/
abbrev Instruction := OperandReport.Instruction Template Report

/-- The register at field `i`; a field that names none gives no register. -/
def registerAt (e : Encoded) (i : Nat) : Register :=
  (Register.ofId? (e.registerId i)).getD .none

/-- The access of field `i`, widened by ties. -/
def accessAt (e : Encoded) (i : Nat) : Access := e.opcode.slots.access i

end OperandReport.Power
