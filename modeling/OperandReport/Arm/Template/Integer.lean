import OperandReport.Arm.Template

/-!
# Integer templates

Arithmetic, logic and moves between core registers, in the 32-bit encoding.
-/

namespace OperandReport.Arm

/-- Arithmetic, logic and moves between core registers, in the 32-bit encoding. -/
def integerTemplates : List Template := [
  { name := "ADDri", mnemonic := "add",
    slots := [.dst, .src, .num, .num, .src, .dst],
    sites := [.effect .flagSetter 5, .effect .predicate 3, .operand .plain 0, .operand .plain 1,
      .operand .rotatedImmediate 2],
    groups := [.arm] },
  { name := "ADDrr", mnemonic := "add",
    slots := [.dst, .src, .src, .num, .src, .dst],
    sites := [.effect .flagSetter 5, .effect .predicate 3, .operand .plain 0, .operand .plain 1,
      .operand .plain 2],
    groups := [.arm] },
  { name := "ADDrsi", mnemonic := "add",
    slots := [.dst, .src, .src, .num, .num, .src, .dst],
    sites := [.effect .flagSetter 6, .effect .predicate 4, .operand .plain 0, .operand .plain 1,
      .operand .constantShifted 2],
    groups := [.arm] },
  { name := "ADDrsr", mnemonic := "add",
    slots := [.dst, .src, .src, .src, .num, .num, .src, .dst],
    sites := [.effect .flagSetter 7, .effect .predicate 5, .operand .plain 0, .operand .plain 1,
      .operand .registerShifted 2],
    groups := [.arm] },
  { name := "SUBrr", mnemonic := "sub",
    slots := [.dst, .src, .src, .num, .src, .dst],
    sites := [.effect .flagSetter 5, .effect .predicate 3, .operand .plain 0, .operand .plain 1,
      .operand .plain 2],
    groups := [.arm] },
  { name := "ADCri", mnemonic := "adc",
    slots := [.dst, .src, .num, .num, .src, .dst],
    sites := [.effect .flagSetter 5, .effect .predicate 3, .operand .plain 0, .operand .plain 1,
      .operand .rotatedImmediate 2],
    reads := [.cpsr], groups := [.arm] },
  { name := "MOVr", mnemonic := "mov",
    slots := [.dst, .src, .num, .src, .dst],
    sites := [.effect .flagSetter 4, .effect .predicate 2, .operand .plain 0, .operand .plain 1],
    groups := [.arm] },
  { name := "MOVi", mnemonic := "mov",
    slots := [.dst, .num, .num, .src, .dst],
    sites := [.effect .flagSetter 4, .effect .predicate 2, .operand .plain 0,
      .operand .rotatedImmediate 1],
    groups := [.arm] },
  { name := "MOVi16", mnemonic := "movw",
    slots := [.dst, .num, .num, .src],
    sites := [.effect .predicate 2, .operand .plain 0, .operand .plain 1],
    groups := [.arm, .v6T2] },
  { name := "MOVTi16", mnemonic := "movt",
    slots := [.dst, .sameAs 0, .num, .num, .src],
    sites := [.effect .predicate 3, .operand .plain 0, .operand .plain 2],
    groups := [.arm, .v6T2] },
  { name := "CMPri", mnemonic := "cmp",
    slots := [.src, .num, .num, .src],
    sites := [.effect .predicate 2, .operand .plain 0, .operand .rotatedImmediate 1],
    writes := [.cpsr], groups := [.arm] },
  { name := "CMPrr", mnemonic := "cmp",
    slots := [.src, .src, .num, .src],
    sites := [.effect .predicate 2, .operand .plain 0, .operand .plain 1],
    writes := [.cpsr], groups := [.arm] },
  { name := "MUL", mnemonic := "mul",
    slots := [.dst, .src, .src, .num, .src, .dst],
    sites := [.effect .flagSetter 5, .effect .predicate 3, .operand .plain 0, .operand .plain 1,
      .operand .plain 2],
    groups := [.arm, .v6] },
  { name := "BFC", mnemonic := "bfc",
    slots := [.dst, .sameAs 0, .num, .num, .src],
    sites := [.effect .predicate 3, .operand .plain 0, .operand .bitfield 2],
    groups := [.arm, .v6T2] },
  { name := "BFI", mnemonic := "bfi",
    slots := [.dst, .sameAs 0, .src, .num, .num, .src],
    sites := [.effect .predicate 4, .operand .plain 0, .operand .plain 2, .operand .bitfield 3],
    groups := [.arm, .v6T2] },
  { name := "PKHBT", mnemonic := "pkhbt",
    slots := [.dst, .src, .src, .num, .num, .src],
    sites := [.effect .predicate 4, .operand .plain 0, .operand .plain 1, .operand .plain 2,
      .operand .packLeft 3],
    groups := [.arm, .v6] },
  { name := "PKHTB", mnemonic := "pkhtb",
    slots := [.dst, .src, .src, .num, .num, .src],
    sites := [.effect .predicate 4, .operand .plain 0, .operand .plain 1, .operand .plain 2,
      .operand .packRight 3],
    groups := [.arm, .v6] },
  { name := "SSAT", mnemonic := "ssat",
    slots := [.dst, .num, .src, .num, .num, .src],
    sites := [.effect .predicate 4, .operand .plain 0, .operand .plusOne 1, .operand .plain 2,
      .operand .saturationShift 3],
    writes := [.cpsr], groups := [.arm, .v6] },
  { name := "USAT", mnemonic := "usat",
    slots := [.dst, .num, .src, .num, .num, .src],
    sites := [.effect .predicate 4, .operand .plain 0, .operand .plain 1, .operand .plain 2,
      .operand .saturationShift 3],
    writes := [.cpsr], groups := [.arm, .v6] },
  { name := "SXTB", mnemonic := "sxtb",
    slots := [.dst, .src, .num, .num, .src],
    sites := [.effect .predicate 3, .operand .plain 0, .operand .plain 1,
      .operand .byteRotation 2],
    groups := [.arm, .v6] }]

end OperandReport.Arm
