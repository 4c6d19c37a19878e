import OperandReport.Arm.Template

/-!
# Vector templates

Floating-point and vector registers.
-/

namespace OperandReport.Arm

/-- Floating-point and vector registers. -/
def vectorTemplates : List Template := [
  { name := "VLDRD", mnemonic := "vldr",
    slots := [.dst, .memReg, .memNum, .num, .src],
    sites := [.effect .predicate 3, .operand .plain 0, .operand (.mode5 false) 1],
    groups := [.vfp2] },
  { name := "VLDRH", mnemonic := "vldr",
    slots := [.dst, .memReg, .memNum, .num, .src],
    sites := [.effect .predicate 3, .operand .plain 0, .operand (.mode5Half false) 1],
    groups := [.fullHalfFloat] },
  { name := "FCONSTS", mnemonic := "vmov",
    slots := [.dst, .num, .num, .src],
    sites := [.effect .predicate 2, .operand .plain 0, .operand .floatImmediate 1],
    groups := [.vfp3] },
  { name := "FCONSTD", mnemonic := "vmov",
    slots := [.dst, .num, .num, .src],
    sites := [.effect .predicate 2, .operand .plain 0, .operand .floatImmediate 1],
    groups := [.vfp3] },
  { name := "VMOVRRD", mnemonic := "vmov",
    slots := [.dst, .dst, .src, .num, .src],
    sites := [.effect .predicate 3, .operand .plain 0, .operand .plain 1, .operand .plain 2],
    groups := [.vfp2] },
  { name := "VTOSHS", mnemonic := "vcvt",
    slots := [.dst, .sameAs 0, .num, .num, .src],
    sites := [.effect .predicate 3, .operand .plain 0, .operand .plain 1,
      .operand (.fractionBits 16) 2],
    groups := [.vfp3] },
  { name := "VTOSLS", mnemonic := "vcvt",
    slots := [.dst, .sameAs 0, .num, .num, .src],
    sites := [.effect .predicate 3, .operand .plain 0, .operand .plain 1,
      .operand (.fractionBits 32) 2],
    groups := [.vfp3] },
  { name := "VMOVv4i32", mnemonic := "vmov",
    slots := [.dst, .num, .num, .src],
    sites := [.effect .predicate 2, .operand .plain 0, .operand .vectorImmediate 1],
    groups := [.neon] },
  { name := "VGETLNi32", mnemonic := "vmov",
    slots := [.dst, .src, .num, .num, .src],
    sites := [.effect .predicate 3, .operand .plain 0, .operand .plain 1, .operand .vectorIndex 2],
    groups := [.vfp2] },
  { name := "VMULslfd", mnemonic := "vmul",
    slots := [.dst, .src, .src, .num, .num, .src],
    sites := [.effect .predicate 4, .operand .plain 0, .operand .plain 1, .operand .plain 2,
      .operand .vectorIndex 3],
    groups := [.neon] },
  { name := "VCMLAv4f32", mnemonic := "vcmla",
    slots := [.dst, .sameAs 0, .src, .src, .num],
    sites := [.operand .plain 0, .operand .plain 2, .operand .plain 3,
      .operand (.complexRotation 90 0) 4],
    groups := [.neon, .v83A] },
  { name := "VCADDv4f32", mnemonic := "vcadd",
    slots := [.dst, .src, .src, .num],
    sites := [.operand .plain 0, .operand .plain 1, .operand .plain 2,
      .operand (.complexRotation 180 90) 3],
    groups := [.neon, .v83A] },
  { name := "VLD1d32", mnemonic := "vld1",
    slots := [.dst, .memReg, .memNum, .num, .src],
    sites := [.effect .predicate 3, .operand (.vectorList .one false) 0, .operand .mode6 1],
    groups := [.neon] },
  { name := "VLD1q32", mnemonic := "vld1",
    slots := [.dst, .memReg, .memNum, .num, .src],
    sites := [.effect .predicate 3, .operand (.vectorList .two false) 0, .operand .mode6 1],
    groups := [.neon] },
  { name := "VLD1d32T", mnemonic := "vld1",
    slots := [.dst, .memReg, .memNum, .num, .src],
    sites := [.effect .predicate 3, .operand (.vectorList .three false) 0, .operand .mode6 1],
    groups := [.neon] },
  { name := "VLD1d32Q", mnemonic := "vld1",
    slots := [.dst, .memReg, .memNum, .num, .src],
    sites := [.effect .predicate 3, .operand (.vectorList .four false) 0, .operand .mode6 1],
    groups := [.neon] },
  { name := "VLD1d32wb_fixed", mnemonic := "vld1",
    slots := [.dst, .dst, .memSameAs 1, .memNum, .num, .src],
    sites := [.effect .predicate 4, .operand (.vectorList .one false) 0, .operand .mode6 2],
    groups := [.neon], writeback := true },
  { name := "VLD1d32wb_register", mnemonic := "vld1",
    slots := [.dst, .dst, .memSameAs 1, .memNum, .src, .num, .src],
    sites := [.effect .predicate 5, .operand (.vectorList .one false) 0, .operand .mode6 2,
      .operand .mode6Offset 4],
    groups := [.neon], writeback := true },
  { name := "VLD1LNd32", mnemonic := "vld1",
    slots := [.dst, .memReg, .memNum, .sameAs 0, .num, .num, .src],
    sites := [.effect .predicate 5, .operand .plain 0, .operand .lane 4, .operand .mode6 1],
    groups := [.neon] },
  { name := "VLD1DUPd32", mnemonic := "vld1",
    slots := [.dst, .memReg, .memNum, .num, .src],
    sites := [.effect .predicate 3, .operand (.vectorList .one true) 0, .operand .mode6 1],
    groups := [.neon] },
  { name := "VLD2b32", mnemonic := "vld2",
    slots := [.dst, .memReg, .memNum, .num, .src],
    sites := [.effect .predicate 3, .operand (.vectorList .twoSpaced false) 0, .operand .mode6 1],
    groups := [.neon] },
  { name := "VLD2DUPd32", mnemonic := "vld2",
    slots := [.dst, .memReg, .memNum, .num, .src],
    sites := [.effect .predicate 3, .operand (.vectorList .two true) 0, .operand .mode6 1],
    groups := [.neon] },
  { name := "VLD2DUPd32x2", mnemonic := "vld2",
    slots := [.dst, .memReg, .memNum, .num, .src],
    sites := [.effect .predicate 3, .operand (.vectorList .twoSpaced true) 0, .operand .mode6 1],
    groups := [.neon] },
  { name := "VLD3q32", mnemonic := "vld3",
    slots := [.dst, .memReg, .memNum, .num, .src],
    sites := [.effect .predicate 3, .operand (.vectorList .threeSpaced false) 0,
      .operand .mode6 1],
    groups := [.neon] },
  { name := "VLD3DUPd32", mnemonic := "vld3",
    slots := [.dst, .memReg, .memNum, .num, .src],
    sites := [.effect .predicate 3, .operand (.vectorList .three true) 0, .operand .mode6 1],
    groups := [.neon] },
  { name := "VLD3DUPq32", mnemonic := "vld3",
    slots := [.dst, .memReg, .memNum, .num, .src],
    sites := [.effect .predicate 3, .operand (.vectorList .threeSpaced true) 0, .operand .mode6 1],
    groups := [.neon] },
  { name := "VLD4q32", mnemonic := "vld4",
    slots := [.dst, .memReg, .memNum, .num, .src],
    sites := [.effect .predicate 3, .operand (.vectorList .fourSpaced false) 0, .operand .mode6 1],
    groups := [.neon] },
  { name := "VLD4DUPd32", mnemonic := "vld4",
    slots := [.dst, .memReg, .memNum, .num, .src],
    sites := [.effect .predicate 3, .operand (.vectorList .four true) 0, .operand .mode6 1],
    groups := [.neon] },
  { name := "VLD4DUPq32", mnemonic := "vld4",
    slots := [.dst, .memReg, .memNum, .num, .src],
    sites := [.effect .predicate 3, .operand (.vectorList .fourSpaced true) 0, .operand .mode6 1],
    groups := [.neon] }]

end OperandReport.Arm
