import OperandReport.Arm.Template

/-!
# Thumb templates

The 16-bit encoding.
-/

namespace OperandReport.Arm

/-- The 16-bit encoding. -/
def thumbTemplates : List Template := [
  { name := "tADDi8", mnemonic := "add",
    slots := [.dst, .dst, .sameAs 0, .num, .num, .src],
    sites := [.effect .flagSetter 1, .effect .predicate 4, .operand .plain 0, .operand .plain 3],
    groups := [.thumb] },
  { name := "tMOVi8", mnemonic := "mov",
    slots := [.dst, .dst, .num, .num, .src],
    sites := [.effect .flagSetter 1, .effect .predicate 3, .operand .plain 0, .operand .plain 2],
    groups := [.thumb] },
  { name := "tLSRri", mnemonic := "lsr",
    slots := [.dst, .dst, .src, .num, .num, .src],
    sites := [.effect .flagSetter 1, .effect .predicate 4, .operand .plain 0, .operand .plain 2,
      .operand .shiftDistance 3],
    groups := [.thumb] },
  { name := "tASRri", mnemonic := "asr",
    slots := [.dst, .dst, .src, .num, .num, .src],
    sites := [.effect .flagSetter 1, .effect .predicate 4, .operand .plain 0, .operand .plain 2,
      .operand .shiftDistance 3],
    groups := [.thumb] },
  { name := "tADDspi", mnemonic := "add",
    slots := [.dst, .sameAs 0, .num, .num, .src],
    sites := [.effect .predicate 3, .operand .plain 0, .operand .timesFour 2],
    groups := [.thumb] },
  { name := "tADR", mnemonic := "adr",
    slots := [.dst, .num, .num, .src],
    sites := [.effect .predicate 2, .operand .plain 0, .operand (.label 2) 1],
    groups := [.thumb] },
  { name := "ADR", mnemonic := "adr",
    slots := [.dst, .num, .num, .src],
    sites := [.effect .predicate 2, .operand .plain 0, .operand (.label 0) 1],
    groups := [.arm] },
  { name := "tB", mnemonic := "b",
    slots := [.num, .num, .src],
    sites := [.effect .predicate 1, .operand .plain 0],
    groups := [.thumb, .relativeBranch], branch := true, relative := true },
  { name := "tBcc", mnemonic := "b",
    slots := [.num, .num, .src],
    sites := [.effect .predicate 1, .operand .plain 0],
    reads := [.cpsr], groups := [.thumb, .relativeBranch], branch := true, relative := true },
  { name := "tBL", mnemonic := "bl",
    slots := [.num, .src, .num],
    sites := [.effect .predicate 0, .operand .plain 2],
    reads := [.sp], writes := [.lr], groups := [.thumb, .call, .relativeBranch], call := true,
      relative := true },
  { name := "tBLXi", mnemonic := "blx",
    slots := [.num, .src, .num],
    sites := [.effect .predicate 0, .operand .plain 2],
    reads := [.sp], writes := [.lr], groups := [.thumb, .call, .relativeBranch], call := true,
      relative := true, fromAlignedPc := true },
  { name := "tCBZ", mnemonic := "cbz",
    slots := [.src, .num],
    sites := [.operand .plain 0, .operand .plain 1],
    groups := [.thumb2, .relativeBranch], branch := true, relative := true },
  { name := "tCBNZ", mnemonic := "cbnz",
    slots := [.src, .num],
    sites := [.operand .plain 0, .operand .plain 1],
    groups := [.thumb2, .relativeBranch], branch := true, relative := true },
  { name := "tPUSH", mnemonic := "push",
    slots := [.num, .src, .src],
    sites := [.effect .predicate 0, .operand .registerList 2],
    reads := [.sp], writes := [.sp], groups := [.thumb], variadic := true },
  { name := "tPOP", mnemonic := "pop",
    slots := [.num, .src, .dst],
    sites := [.effect .predicate 0, .operand .registerList 2],
    reads := [.sp], writes := [.sp], groups := [.thumb], variadic := true },
  { name := "tLDRi", mnemonic := "ldr",
    slots := [.dst, .memReg, .memNum, .num, .src],
    sites := [.effect .predicate 3, .operand .plain 0, .operand (.scaledOffset 4) 1],
    groups := [.thumb] },
  { name := "tLDRHi", mnemonic := "ldrh",
    slots := [.dst, .memReg, .memNum, .num, .src],
    sites := [.effect .predicate 3, .operand .plain 0, .operand (.scaledOffset 2) 1],
    groups := [.thumb] },
  { name := "tLDRBi", mnemonic := "ldrb",
    slots := [.dst, .memReg, .memNum, .num, .src],
    sites := [.effect .predicate 3, .operand .plain 0, .operand (.scaledOffset 1) 1],
    groups := [.thumb] },
  { name := "tLDRr", mnemonic := "ldr",
    slots := [.dst, .memReg, .memReg, .num, .src],
    sites := [.effect .predicate 3, .operand .plain 0, .operand .indexed 1],
    groups := [.thumb] },
  { name := "tLDRspi", mnemonic := "ldr",
    slots := [.dst, .memReg, .memNum, .num, .src],
    sites := [.effect .predicate 3, .operand .plain 0, .operand .stackOffset 1],
    groups := [.thumb] },
  { name := "tLDRpci", mnemonic := "ldr",
    slots := [.dst, .memNum, .num, .src],
    sites := [.effect .predicate 2, .operand .plain 0, .operand .literal 1],
    groups := [.thumb] }]

end OperandReport.Arm
