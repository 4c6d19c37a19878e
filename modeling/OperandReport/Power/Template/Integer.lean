import OperandReport.Power.Template

/-!
# Integer templates

Arithmetic, logic and comparisons of general registers.
-/

namespace OperandReport.Power

/-- Arithmetic, logic and comparisons of general registers. -/
def integerTemplates : List Template := [
  { name := "ADDI", mnemonic := "addi",
    slots := [.dst, .src, .num],
    sites := [.operand .plain 0, .operand .plain 1, .operand (.signed 16) 2] },
  { name := "ADDIS", mnemonic := "addis",
    slots := [.dst, .src, .num],
    sites := [.operand .plain 0, .operand .plain 1, .operand (.signed 16) 2] },
  { name := "ADD4", mnemonic := "add",
    slots := [.dst, .src, .src],
    sites := [.operand .plain 0, .operand .plain 1, .operand .plain 2] },
  { name := "ADD4_rec", mnemonic := "add.",
    slots := [.dst, .src, .src],
    sites := [.operand .plain 0, .operand .plain 1, .operand .plain 2],
    writes := [.conditionField 0] },
  { name := "SUBF", mnemonic := "subf",
    slots := [.dst, .src, .src],
    sites := [.operand .plain 0, .operand .plain 1, .operand .plain 2] },
  { name := "OR", mnemonic := "or",
    slots := [.dst, .src, .src],
    sites := [.operand .plain 0, .operand .plain 1, .operand .plain 2] },
  { name := "OR_rec", mnemonic := "or.",
    slots := [.dst, .src, .src],
    sites := [.operand .plain 0, .operand .plain 1, .operand .plain 2],
    writes := [.conditionField 0] },
  { name := "ADDIC", mnemonic := "addic",
    slots := [.dst, .src, .num],
    sites := [.operand .plain 0, .operand .plain 1, .operand (.signed 16) 2],
    writes := [.carry] },
  { name := "ADDIC_rec", mnemonic := "addic.",
    slots := [.dst, .src, .num],
    sites := [.operand .plain 0, .operand .plain 1, .operand (.signed 16) 2],
    writes := [.carry, .conditionField 0] },
  { name := "ANDI_rec", mnemonic := "andi.",
    slots := [.dst, .src, .num],
    sites := [.operand .plain 0, .operand .plain 1, .operand (.unsigned 16) 2],
    writes := [.conditionField 0] },
  { name := "ORI", mnemonic := "ori",
    slots := [.dst, .src, .num],
    sites := [.operand .plain 0, .operand .plain 1, .operand (.unsigned 16) 2] },
  { name := "ORIS", mnemonic := "oris",
    slots := [.dst, .src, .num],
    sites := [.operand .plain 0, .operand .plain 1, .operand (.unsigned 16) 2] },
  { name := "RLWINM", mnemonic := "rlwinm",
    slots := [.dst, .src, .num, .num, .num],
    sites := [.operand .plain 0, .operand .plain 1, .operand (.unsigned 5) 2,
      .operand (.unsigned 5) 3, .operand (.unsigned 5) 4] },
  { name := "RLWINM_rec", mnemonic := "rlwinm.",
    slots := [.dst, .src, .num, .num, .num],
    sites := [.operand .plain 0, .operand .plain 1, .operand (.unsigned 5) 2,
      .operand (.unsigned 5) 3, .operand (.unsigned 5) 4],
    writes := [.conditionField 0] },
  { name := "SRAWI", mnemonic := "srawi",
    slots := [.dst, .src, .num],
    sites := [.operand .plain 0, .operand .plain 1, .operand (.unsigned 5) 2],
    writes := [.carry] },
  { name := "RLDICL", mnemonic := "rldicl",
    slots := [.dst, .src, .num, .num],
    sites := [.operand .plain 0, .operand .plain 1, .operand (.unsigned 6) 2,
      .operand (.unsigned 6) 3],
    groups := [.wide] },
  { name := "CMPW", mnemonic := "cmpw",
    slots := [.dst, .src, .src],
    sites := [.operand .plain 0, .operand .plain 1, .operand .plain 2] },
  { name := "CMPWI", mnemonic := "cmpwi",
    slots := [.dst, .src, .num],
    sites := [.operand .plain 0, .operand .plain 1, .operand (.signed 16) 2] },
  { name := "CMPLWI", mnemonic := "cmplwi",
    slots := [.dst, .src, .num],
    sites := [.operand .plain 0, .operand .plain 1, .operand (.unsigned 16) 2] }]

end OperandReport.Power
