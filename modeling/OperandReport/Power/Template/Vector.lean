import OperandReport.Power.Template

/-!
# Vector templates

Floating-point, vector and vector-scalar registers.
-/

namespace OperandReport.Power

/-- Floating-point, vector and vector-scalar registers. -/
def vectorTemplates : List Template := [
  { name := "FADD", mnemonic := "fadd",
    slots := [.dst, .src, .src],
    sites := [.operand .plain 0, .operand .plain 1, .operand .plain 2],
    reads := [.rm], groups := [.floatingPoint] },
  { name := "FADD_rec", mnemonic := "fadd.",
    slots := [.dst, .src, .src],
    sites := [.operand .plain 0, .operand .plain 1, .operand .plain 2],
    reads := [.rm], writes := [.conditionField 1], groups := [.floatingPoint] },
  { name := "MTFSFI", mnemonic := "mtfsfi",
    slots := [.num, .num, .num],
    sites := [.operand (.unsigned 3) 0, .operand (.unsigned 4) 1, .operand (.unsigned 1) 2],
    writes := [.rm], groups := [.floatingPoint] },
  { name := "XSADDDP", mnemonic := "xsadddp",
    slots := [.dst, .src, .src],
    sites := [.operand .plain 0, .operand .plain 1, .operand .plain 2],
    vectorScalarSlots := [0, 1, 2], reads := [.rm], groups := [.vectorScalar] },
  { name := "XXLOR", mnemonic := "xxlor",
    slots := [.dst, .src, .src],
    sites := [.operand .plain 0, .operand .plain 1, .operand .plain 2],
    vectorScalarSlots := [0, 1, 2], groups := [.vectorScalar] },
  { name := "XXPERMDI", mnemonic := "xxpermdi",
    slots := [.dst, .src, .src, .num],
    sites := [.operand .plain 0, .operand .plain 1, .operand .plain 2, .operand (.unsigned 2) 3],
    vectorScalarSlots := [0, 1, 2], groups := [.vectorScalar] },
  { name := "XXSPLTIB", mnemonic := "xxspltib",
    slots := [.dst, .num],
    sites := [.operand .plain 0, .operand (.unsigned 8) 1],
    vectorScalarSlots := [0], groups := [.vectorScalar, .power9Vector] },
  { name := "LXV", mnemonic := "lxv",
    slots := [.dst, .memNum, .memReg],
    sites := [.operand .plain 0, .operand .displaced 1],
    vectorScalarSlots := [0], groups := [.vectorScalar, .power9Vector] },
  { name := "LXVX", mnemonic := "lxvx",
    slots := [.dst, .memReg, .memReg],
    sites := [.operand .plain 0, .operand .indexed 1],
    vectorScalarSlots := [0], groups := [.vectorScalar, .power9Vector] },
  { name := "VADDUWM", mnemonic := "vadduwm",
    slots := [.dst, .src, .src],
    sites := [.operand .plain 0, .operand .plain 1, .operand .plain 2],
    groups := [.altivec] },
  { name := "VSPLTISW", mnemonic := "vspltisw",
    slots := [.dst, .num],
    sites := [.operand .plain 0, .operand (.signed 5) 1],
    groups := [.altivec] }]

end OperandReport.Power
