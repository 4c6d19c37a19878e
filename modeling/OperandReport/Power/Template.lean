import OperandReport.Power.Form
import OperandReport.Power.Group
import OperandReport.Power.Register
import OperandReport.Slot

/-!
# PowerPC templates

The template of an opcode is all that is known before any field is read.
-/

namespace OperandReport.Power

/-- Where a field of a branch condition comes from. -/
inductive ConditionSource where
  | constant (value : Nat)
  | slot (i : Nat)
  deriving DecidableEq, Repr

/-- The fixed description of an opcode. -/
structure Template where
  name : String
  mnemonic : String
  slots : SlotTable
  sites : List Site
  /-- registers read without being operands -/
  reads : List Register := []
  /-- registers written without being operands -/
  writes : List Register := []
  groups : List Group := []
  branch : Bool := false
  indirect : Bool := false
  call : Bool := false
  ret : Bool := false
  /-- the effective address is written back to the base register -/
  writeback : Bool := false
  store : Bool := false
  /-- the target of the branch is an absolute address -/
  absolute : Bool := false
  /-- where `bo` and `bi` come from, in a branch that spells them out -/
  condition : Option (ConditionSource × ConditionSource) := none
  /-- the slots that hold vector-scalar registers -/
  vectorScalarSlots : List Nat := []
  deriving DecidableEq, Repr, Inhabited

/-- The instruction belongs to the jump group. -/
def Template.jumps (t : Template) : Bool := t.branch || t.indirect

end OperandReport.Power
