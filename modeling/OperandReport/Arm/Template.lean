import OperandReport.Arm.Form
import OperandReport.Arm.Group
import OperandReport.Arm.Register
import OperandReport.Slot

/-!
# ARM templates

The template of an opcode is all that is known before any field is read: the slot
table, the sites in the order in which their operands are written, the implicit
registers, the groups, and what the instruction does to control flow and to its
base register.
-/

namespace OperandReport.Arm

/-- The fixed description of an opcode. -/
structure Template where
  name : String
  mnemonic : String
  slots : SlotTable
  sites : List Site
  /-- registers read without being operands -/
  reads : List Register := []
  /-- registers written without being operands -/
  writes : List Register := []
  groups : List Group := []
  branch : Bool := false
  indirect : Bool := false
  call : Bool := false
  ret : Bool := false
  writeback : Bool := false
  postIndexed : Bool := false
  /-- a transfer with user-mode privileges -/
  userMode : Bool := false
  /-- the last slot repeats for every further field -/
  variadic : Bool := false
  /-- an immediate operand is relative to the program counter -/
  relative : Bool := false
  /-- a relative target counts from the program counter rounded down to a word -/
  fromAlignedPc : Bool := false
  deriving DecidableEq, Repr, Inhabited

/-- The instruction belongs to the jump group. -/
def Template.jumps (t : Template) : Bool := t.branch || t.indirect

end OperandReport.Arm
