import OperandReport.Power.Opcode
import OperandReport.Power.Report
import OperandReport.Screening

/-!
# Screening of PowerPC instructions

Every opcode takes exactly one field for each slot.
-/

namespace OperandReport.Power

/-- Checks fields against a template. -/
def Template.screen (t : Template) (fields : List Field) : Except Rejection Unit :=
  OperandReport.screen (fun id => (Register.ofId? id).isSome) (· == t.slots.length) t.slots fields

/-- A screened instruction, with a fresh report if one is asked for. -/
def Instruction.build (e : Encoded) (detail : Bool) : Except Rejection Instruction :=
  (e.opcode.screen e.fields).map fun _ => .ofEncoded e detail

end OperandReport.Power
