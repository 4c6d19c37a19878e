import OperandReport.Arm.Template

/-!
# Transfer templates

Loads and stores of core registers and coprocessors, in the 32-bit encoding.
-/

namespace OperandReport.Arm

/-- Loads and stores of core registers and coprocessors, in the 32-bit encoding. -/
def transferTemplates : List Template := [
  { name := "LDRi12", mnemonic := "ldr",
    slots := [.dst, .memReg, .memNum, .num, .src],
    sites := [.effect .predicate 3, .operand .plain 0, .operand (.signedOffset false) 1],
    groups := [.arm] },
  { name := "STRi12", mnemonic := "str",
    slots := [.src, .memDst, .memNum, .num, .src],
    sites := [.effect .predicate 3, .operand .plain 0, .operand (.signedOffset false) 1],
    groups := [.arm] },
  { name := "LDRrs", mnemonic := "ldr",
    slots := [.dst, .memReg, .memReg, .memNum, .num, .src],
    sites := [.effect .predicate 4, .operand .plain 0, .operand .mode2 1],
    groups := [.arm] },
  { name := "LDR_PRE_IMM", mnemonic := "ldr",
    slots := [.dst, .dst, .memSameAs 1, .memNum, .num, .src],
    sites := [.effect .predicate 4, .operand .plain 0, .operand (.signedOffset true) 2],
    groups := [.arm], writeback := true },
  { name := "LDR_POST_IMM", mnemonic := "ldr",
    slots := [.dst, .dst, .memSameAs 1, .src, .num, .num, .src],
    sites := [.effect .predicate 5, .operand .plain 0, .operand .baseOnly 2,
      .operand .mode2Offset 3],
    groups := [.arm], writeback := true, postIndexed := true },
  { name := "LDR_POST_REG", mnemonic := "ldr",
    slots := [.dst, .dst, .memSameAs 1, .src, .num, .num, .src],
    sites := [.effect .predicate 5, .operand .plain 0, .operand .baseOnly 2,
      .operand .mode2Offset 3],
    groups := [.arm], writeback := true, postIndexed := true },
  { name := "LDRT_POST_IMM", mnemonic := "ldrt",
    slots := [.dst, .dst, .memSameAs 1, .src, .num, .num, .src],
    sites := [.effect .predicate 5, .operand .plain 0, .operand .baseOnly 2,
      .operand .mode2Offset 3],
    groups := [.arm], writeback := true, postIndexed := true, userMode := true },
  { name := "LDRH", mnemonic := "ldrh",
    slots := [.dst, .memReg, .memReg, .memNum, .num, .src],
    sites := [.effect .predicate 4, .operand .plain 0, .operand (.mode3 false) 1],
    groups := [.arm] },
  { name := "LDRD", mnemonic := "ldrd",
    slots := [.dst, .dst, .memReg, .memReg, .memNum, .num, .src],
    sites := [.effect .predicate 5, .operand .plain 0, .operand .plain 1,
      .operand (.mode3 false) 2],
    groups := [.arm, .v5T] },
  { name := "LDRH_POST", mnemonic := "ldrh",
    slots := [.dst, .dst, .memSameAs 1, .src, .num, .num, .src],
    sites := [.effect .predicate 5, .operand .plain 0, .operand .baseOnly 2,
      .operand .mode3Offset 3],
    groups := [.arm], writeback := true, postIndexed := true },
  { name := "LDRHTr", mnemonic := "ldrht",
    slots := [.dst, .dst, .memSameAs 1, .src, .num, .num, .src],
    sites := [.effect .predicate 5, .operand .plain 0, .operand .baseOnly 2,
      .operand .postRegister 3],
    groups := [.arm], writeback := true, postIndexed := true, userMode := true },
  { name := "LDRHTi", mnemonic := "ldrht",
    slots := [.dst, .dst, .memSameAs 1, .num, .num, .src],
    sites := [.effect .predicate 4, .operand .plain 0, .operand .baseOnly 2,
      .operand .postOffset 3],
    groups := [.arm], writeback := true, postIndexed := true, userMode := true },
  { name := "LDMIA", mnemonic := "ldm",
    slots := [.src, .num, .src, .dst],
    sites := [.effect .predicate 1, .operand .plain 0, .operand .registerList 3],
    groups := [.arm], variadic := true },
  { name := "LDMIA_UPD", mnemonic := "ldm",
    slots := [.dst, .sameAs 0, .num, .src, .dst],
    sites := [.effect .predicate 2, .operand .plain 1, .operand .registerList 4],
    groups := [.arm], writeback := true, variadic := true },
  { name := "STMDB_UPD", mnemonic := "stmdb",
    slots := [.dst, .sameAs 0, .num, .src, .src],
    sites := [.effect .predicate 2, .operand .plain 1, .operand .registerList 4],
    groups := [.arm], writeback := true, variadic := true },
  { name := "LDREXD", mnemonic := "ldrexd",
    slots := [.dst, .memReg, .num, .src],
    sites := [.effect .predicate 2, .operand .corePair 0, .operand .baseOnly 1],
    groups := [.arm, .v6K] },
  { name := "LDC_OFFSET", mnemonic := "ldc",
    slots := [.num, .num, .memReg, .memNum, .num, .src],
    sites := [.effect .predicate 4, .operand .coprocessor 0, .operand .coprocessorRegister 1,
      .operand (.mode5 false) 2],
    groups := [.arm] },
  { name := "LDC_OPTION", mnemonic := "ldc",
    slots := [.num, .num, .memReg, .num, .num, .src],
    sites := [.effect .predicate 4, .operand .coprocessor 0, .operand .coprocessorRegister 1,
      .operand .baseOnly 2, .operand .coprocessorOption 3],
    groups := [.arm] },
  { name := "LDC_POST", mnemonic := "ldc",
    slots := [.num, .num, .memReg, .num, .num, .src],
    sites := [.effect .predicate 4, .operand .coprocessor 0, .operand .coprocessorRegister 1,
      .operand .baseOnly 2, .operand .postWordOffset 3],
    groups := [.arm], writeback := true, postIndexed := true }]

end OperandReport.Arm
