import OperandReport.Arm.Template

/-!
# Wide Thumb templates

The mixed 16- and 32-bit encoding.
-/

namespace OperandReport.Arm

/-- The mixed 16- and 32-bit encoding. -/
def wideThumbTemplates : List Template := [
  { name := "t2B", mnemonic := "b",
    slots := [.num, .num, .src],
    sites := [.effect .predicate 1, .operand .plain 0],
    groups := [.thumb2, .relativeBranch], branch := true, relative := true },
  { name := "t2Bcc", mnemonic := "b",
    slots := [.num, .num, .src],
    sites := [.effect .predicate 1, .operand .plain 0],
    reads := [.cpsr], groups := [.thumb2, .relativeBranch], branch := true, relative := true },
  { name := "t2IT", mnemonic := "it",
    slots := [.num, .num],
    sites := [.effect .blockMask 1, .effect .mandatoryPredicate 0],
    writes := [.itstate], groups := [.thumb2] },
  { name := "t2ADDri", mnemonic := "add",
    slots := [.dst, .src, .num, .num, .src, .dst],
    sites := [.effect .flagSetter 5, .effect .predicate 3, .operand .plain 0, .operand .plain 1,
      .operand .plain 2],
    groups := [.thumb2] },
  { name := "t2ADDrs", mnemonic := "add",
    slots := [.dst, .src, .src, .num, .num, .src, .dst],
    sites := [.effect .flagSetter 6, .effect .predicate 4, .operand .plain 0, .operand .plain 1,
      .operand .wideConstantShifted 2],
    groups := [.thumb2] },
  { name := "t2MOVsrl_flag", mnemonic := "lsrs",
    slots := [.dst, .src, .num, .src],
    sites := [.effect .predicate 2, .operand .plain 0, .operand .plain 1,
      .operand (.fixedShift 3 1) 1],
    writes := [.cpsr], groups := [.thumb2] },
  { name := "t2LDRi12", mnemonic := "ldr",
    slots := [.dst, .memReg, .memNum, .num, .src],
    sites := [.effect .predicate 3, .operand .plain 0, .operand (.signedOffset false) 1],
    groups := [.thumb2] },
  { name := "t2LDRi8", mnemonic := "ldr",
    slots := [.dst, .memReg, .memNum, .num, .src],
    sites := [.effect .predicate 3, .operand .plain 0, .operand (.shortOffset false) 1],
    groups := [.thumb2] },
  { name := "t2LDR_PRE", mnemonic := "ldr",
    slots := [.dst, .dst, .memSameAs 1, .memNum, .num, .src],
    sites := [.effect .predicate 4, .operand .plain 0, .operand (.shortOffset true) 2],
    groups := [.thumb2], writeback := true },
  { name := "t2LDR_POST", mnemonic := "ldr",
    slots := [.dst, .dst, .memSameAs 1, .num, .num, .src],
    sites := [.effect .predicate 4, .operand .plain 0, .operand .baseOnly 2,
      .operand .shortPostOffset 3],
    groups := [.thumb2], writeback := true, postIndexed := true },
  { name := "t2LDRs", mnemonic := "ldr",
    slots := [.dst, .memReg, .memReg, .memNum, .num, .src],
    sites := [.effect .predicate 4, .operand .plain 0, .operand .shiftedIndex 1],
    groups := [.thumb2] },
  { name := "t2LDRDi8", mnemonic := "ldrd",
    slots := [.dst, .dst, .memReg, .memNum, .num, .src],
    sites := [.effect .predicate 4, .operand .plain 0, .operand .plain 1,
      .operand (.shortWordOffset false) 2],
    groups := [.thumb2] },
  { name := "t2LDRD_PRE", mnemonic := "ldrd",
    slots := [.dst, .dst, .dst, .memSameAs 2, .memNum, .num, .src],
    sites := [.effect .predicate 5, .operand .plain 0, .operand .plain 1,
      .operand (.shortWordOffset true) 3],
    groups := [.thumb2], writeback := true },
  { name := "t2LDRD_POST", mnemonic := "ldrd",
    slots := [.dst, .dst, .dst, .memSameAs 2, .num, .num, .src],
    sites := [.effect .predicate 5, .operand .plain 0, .operand .plain 1, .operand .baseOnly 3,
      .operand .shortPostWordOffset 4],
    groups := [.thumb2], writeback := true, postIndexed := true },
  { name := "t2LDREX", mnemonic := "ldrex",
    slots := [.dst, .memReg, .memNum, .num, .src],
    sites := [.effect .predicate 3, .operand .plain 0, .operand .exclusiveOffset 1],
    groups := [.thumb2] },
  { name := "t2TBB", mnemonic := "tbb",
    slots := [.memReg, .memReg, .num, .src],
    sites := [.effect .predicate 2, .operand .tableByte 0],
    groups := [.thumb2], branch := true, indirect := true },
  { name := "t2TBH", mnemonic := "tbh",
    slots := [.memReg, .memReg, .num, .src],
    sites := [.effect .predicate 2, .operand .tableHalf 0],
    groups := [.thumb2], branch := true, indirect := true }]

end OperandReport.Arm
