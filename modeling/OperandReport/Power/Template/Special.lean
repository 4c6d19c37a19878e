import OperandReport.Power.Template

/-!
# Special templates

Condition and special-purpose registers.
-/

namespace OperandReport.Power

/-- Condition and special-purpose registers. -/
def specialTemplates : List Template := [
  { name := "MFOCRF", mnemonic := "mfocrf",
    slots := [.dst, .src],
    sites := [.operand .plain 0, .operand .conditionField 1] },
  { name := "MTOCRF", mnemonic := "mtocrf",
    slots := [.dst, .src],
    sites := [.operand .conditionField 0, .operand .plain 1] },
  { name := "CRAND", mnemonic := "crand",
    slots := [.dst, .src, .src],
    sites := [.operand .plain 0, .operand .plain 1, .operand .plain 2] },
  { name := "MFLR", mnemonic := "mflr",
    slots := [.dst],
    sites := [.operand .plain 0],
    reads := [.lr] },
  { name := "MTLR", mnemonic := "mtlr",
    slots := [.src],
    sites := [.operand .plain 0],
    writes := [.lr] },
  { name := "MFCTR", mnemonic := "mfctr",
    slots := [.dst],
    sites := [.operand .plain 0],
    reads := [.ctr] },
  { name := "MTCTR", mnemonic := "mtctr",
    slots := [.src],
    sites := [.operand .plain 0],
    writes := [.ctr] },
  { name := "SC", mnemonic := "sc",
    slots := [.num],
    sites := [.operand (.unsigned 7) 0],
    groups := [.interrupt] }]

end OperandReport.Power
