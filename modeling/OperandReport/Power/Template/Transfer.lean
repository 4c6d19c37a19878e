import OperandReport.Power.Template

/-!
# Transfer templates

Loads and stores.
-/

namespace OperandReport.Power

/-- Loads and stores. -/
def transferTemplates : List Template := [
  { name := "LWZ", mnemonic := "lwz",
    slots := [.dst, .memNum, .memReg],
    sites := [.operand .plain 0, .operand .displaced 1] },
  { name := "LWZU", mnemonic := "lwzu",
    slots := [.dst, .dst, .memNum, .memSameAs 1],
    sites := [.operand .plain 0, .operand .displaced 2],
    writeback := true },
  { name := "LWZX", mnemonic := "lwzx",
    slots := [.dst, .memReg, .memReg],
    sites := [.operand .plain 0, .operand .indexed 1] },
  { name := "LD", mnemonic := "ld",
    slots := [.dst, .memNum, .memReg],
    sites := [.operand .plain 0, .operand .displaced 1],
    groups := [.wide] },
  { name := "STW", mnemonic := "stw",
    slots := [.src, .memNum, .memReg],
    sites := [.operand .plain 0, .operand .displaced 1],
    store := true },
  { name := "STWU", mnemonic := "stwu",
    slots := [.dst, .src, .memNum, .memSameAs 0],
    sites := [.operand .plain 1, .operand .displaced 2],
    store := true, writeback := true },
  { name := "STWX", mnemonic := "stwx",
    slots := [.src, .memReg, .memReg],
    sites := [.operand .plain 0, .operand .indexed 1],
    store := true },
  { name := "PLWZ", mnemonic := "plwz",
    slots := [.dst, .memNum, .memReg],
    sites := [.operand .plain 0, .operand .displacedFar 1],
    groups := [.isa31, .prefixed] },
  { name := "PLWZpc", mnemonic := "plwz",
    slots := [.dst, .memNum, .memNum],
    sites := [.operand .plain 0, .operand .displacedFromPc 1],
    groups := [.isa31, .prefixed] },
  { name := "PLI", mnemonic := "pli",
    slots := [.dst, .num],
    sites := [.operand .plain 0, .operand (.signed 34) 1],
    groups := [.isa31, .prefixed] },
  { name := "PADDIpc", mnemonic := "paddi",
    slots := [.dst, .num, .num],
    sites := [.operand .plain 0, .operand .zero 1, .operand (.signed 34) 2],
    groups := [.isa31, .prefixed] },
  { name := "HASHST", mnemonic := "hashst",
    slots := [.src, .memNum, .memReg],
    sites := [.operand .plain 0, .operand .displacedExactly 1],
    store := true, groups := [.isa31] },
  { name := "HASHCHK", mnemonic := "hashchk",
    slots := [.src, .memNum, .memReg],
    sites := [.operand .plain 0, .operand .displacedExactly 1],
    groups := [.isa31] }]

end OperandReport.Power
