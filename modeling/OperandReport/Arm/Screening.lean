import OperandReport.Arm.Opcode
import OperandReport.Arm.Report
import OperandReport.Screening

/-!
# Screening of ARM instructions

Most opcodes take exactly one field for each slot.  Where the last slot repeats, it
stands for a register list, which names each core register at most once.
-/

namespace OperandReport.Arm

/-- The longest register list. -/
def listCapacity : Nat := 16

/-- Whether a number of fields suits a template. -/
def Template.takes (t : Template) (count : Nat) : Bool :=
  if t.variadic then
    t.slots.length ≤ count && count + 1 - t.slots.length ≤ listCapacity && count ≤ operandCapacity
  else count == t.slots.length

/-- Checks fields against a template. -/
def Template.screen (t : Template) (fields : List Field) : Except Rejection Unit :=
  OperandReport.screen (fun id => (Register.ofId? id).isSome) t.takes t.slots fields

/-- A screened instruction, with a fresh report if one is asked for. -/
def Instruction.build (e : Encoded) (detail : Bool) : Except Rejection Instruction :=
  (e.opcode.screen e.fields).map fun _ => .ofEncoded e detail

end OperandReport.Arm
