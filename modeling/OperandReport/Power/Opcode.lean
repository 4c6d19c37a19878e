import OperandReport.Power.Template.Branch
import OperandReport.Power.Template.Integer
import OperandReport.Power.Template.Special
import OperandReport.Power.Template.Transfer
import OperandReport.Power.Template.Vector

/-!
# PowerPC opcodes

All templates, in the order of the opcode numbers.
-/

namespace OperandReport.Power

/-- The templates by opcode number. -/
def templates : List Template :=
  integerTemplates ++ transferTemplates ++ branchTemplates ++ specialTemplates ++ vectorTemplates

/-- The template of an opcode number. -/
def Template.ofNumber? (n : Nat) : Option Template := templates[n]?

/-- The opcode number of a name. -/
def numberOf? (name : String) : Option Nat := templates.findIdx? (·.name == name)

end OperandReport.Power
