import OperandReport.Arm.Barrier
import OperandReport.Arm.Condition
import OperandReport.Arm.Group
import OperandReport.Arm.Operand
import OperandReport.Arm.Template
import OperandReport.Cursor
import OperandReport.Instruction
import OperandReport.OrderedSet

/-!
# ARM reports

A report says what an instruction does: its operands, and its effects besides.
The two halves are kept apart, since every form changes only one of them.
-/

namespace OperandReport.Arm

/-- What an instruction does besides its operands. -/
structure Effects where
  /-- the condition of an instruction that can be predicated -/
  condition : Option Condition := none
  vectorCondition : Option VectorCondition := none
  updatesFlags : Bool := false
  writeback : Bool := false
  postIndexed : Bool := false
  userMode : Bool := false
  barrier : Option Barrier := none
  interruptMode : Option InterruptMode := none
  /-- the interrupts that are masked or unmasked, as three bits -/
  interruptMask : Option Nat := none
  /-- the mask of a block of predicated instructions, as encoded -/
  blockMask : Nat := 0
  reads : OrderedSet Register 20 := .empty
  writes : OrderedSet Register 20 := .empty
  groups : OrderedSet Group 8 := .empty
  deriving DecidableEq, Repr, Inhabited

/-- The most operands that a report holds. -/
def operandCapacity : Nat := 36

/-- The operands and effects of an instruction. -/
structure Report where
  operands : Cursor Operand operandCapacity := .empty
  effects : Effects := {}
  deriving DecidableEq, Repr, Inhabited

/-- An ARM opcode with its fields. -/
abbrev Encoded := OperandReport.Encoded Template

/-- An ARM instruction. -/
abbrev Instruction := OperandReport.Instruction Template Report

/-- The register at field `i`; a field that names none gives no register. -/
def registerAt (e : Encoded) (i : Nat) : Register :=
  (Register.ofId? (e.registerId i)).getD .none

/-- The access of field `i`, widened by ties. -/
def accessAt (e : Encoded) (i : Nat) : Access := e.opcode.slots.access i

/-- The access of field `i` without regard to ties. -/
def nominalAccessAt (e : Encoded) (i : Nat) : Access := (e.opcode.slots.describe i).access

end OperandReport.Arm
