import OperandReport.Arm.Template

/-!
# Vector extension templates

The vector extension of the microcontroller profile.
-/

namespace OperandReport.Arm

/-- The vector extension of the microcontroller profile. -/
def vectorExtensionTemplates : List Template := [
  { name := "MVE_VADDVs32no_acc", mnemonic := "vaddv",
    slots := [.dst, .src, .num, .src, .src],
    sites := [.effect .vectorPredicate 2, .operand .plain 0, .operand .plain 1],
    groups := [.mve, .thumb2] },
  { name := "MVE_VPTv4i32", mnemonic := "vpt",
    slots := [.num, .num, .src, .src],
    sites := [.effect .vectorBlockMask 0, .effect .mandatoryPredicate 1, .operand .plain 2,
      .operand .plain 3],
    writes := [.vpr], groups := [.mve, .thumb2] },
  { name := "MVE_VCMPi32", mnemonic := "vcmp",
    slots := [.dst, .src, .src, .num, .num, .src, .src],
    sites := [.effect .vectorPredicate 4, .effect .restrictedPredicate 3, .operand .plain 1,
      .operand .plain 2],
    writes := [.vpr], groups := [.mve, .thumb2] },
  { name := "MVE_VLDRWU32_rq", mnemonic := "vldrw",
    slots := [.dst, .memReg, .memReg, .num, .src, .src],
    sites := [.effect .vectorPredicate 3, .operand .plain 0, .operand (.vectorOffsets 2) 1],
    groups := [.mve, .thumb2] },
  { name := "MVE_VLD20_32", mnemonic := "vld20",
    slots := [.dst, .memReg],
    sites := [.operand (.quadList 2) 0, .operand .baseOnly 1],
    groups := [.mve, .thumb2] },
  { name := "MVE_VLD40_32", mnemonic := "vld40",
    slots := [.dst, .memReg],
    sites := [.operand (.quadList 4) 0, .operand .baseOnly 1],
    groups := [.mve, .thumb2] },
  { name := "MVE_SQRSHRL", mnemonic := "sqrshrl",
    slots := [.dst, .dst, .sameAs 0, .sameAs 1, .src, .num, .num, .src],
    sites := [.effect .predicate 6, .operand .plain 0, .operand .plain 1, .operand .saturation 5,
      .operand .plain 4],
    groups := [.mve, .v81M] }]

end OperandReport.Arm
