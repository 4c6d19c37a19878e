import OperandReport.Arm.Template.Branch
import OperandReport.Arm.Template.Integer
import OperandReport.Arm.Template.System
import OperandReport.Arm.Template.Thumb
import OperandReport.Arm.Template.Transfer
import OperandReport.Arm.Template.Vector
import OperandReport.Arm.Template.VectorExtension
import OperandReport.Arm.Template.WideThumb

/-!
# ARM opcodes

All templates, in the order of the opcode numbers.
-/

namespace OperandReport.Arm

/-- The templates by opcode number. -/
def templates : List Template :=
  integerTemplates ++ systemTemplates ++ branchTemplates ++ transferTemplates ++
    vectorTemplates ++ thumbTemplates ++ wideThumbTemplates ++ vectorExtensionTemplates

/-- The template of an opcode number. -/
def Template.ofNumber? (n : Nat) : Option Template := templates[n]?

/-- The opcode number of a name. -/
def numberOf? (name : String) : Option Nat := templates.findIdx? (·.name == name)

end OperandReport.Arm
