import OperandReport.Arm.Template

/-!
# Branch templates

Branches, in the 32-bit encoding.
-/

namespace OperandReport.Arm

/-- Branches, in the 32-bit encoding. -/
def branchTemplates : List Template := [
  { name := "Bcc", mnemonic := "b",
    slots := [.num, .num, .src],
    sites := [.effect .predicate 1, .operand .plain 0],
    reads := [.cpsr], groups := [.arm, .relativeBranch], branch := true, relative := true },
  { name := "BL", mnemonic := "bl",
    slots := [.num],
    sites := [.operand .plain 0],
    reads := [.sp], writes := [.lr], groups := [.arm, .call, .relativeBranch], call := true,
      relative := true },
  { name := "BL_pred", mnemonic := "bl",
    slots := [.num, .num, .src],
    sites := [.effect .predicate 1, .operand .plain 0],
    reads := [.sp], writes := [.lr], groups := [.arm, .call, .relativeBranch], call := true,
      relative := true },
  { name := "BLXi", mnemonic := "blx",
    slots := [.num],
    sites := [.operand .plain 0],
    reads := [.sp], writes := [.lr], groups := [.arm, .call, .relativeBranch], call := true,
      relative := true },
  { name := "BLX", mnemonic := "blx",
    slots := [.src],
    sites := [.operand .plain 0],
    reads := [.sp], writes := [.lr], groups := [.arm, .call], call := true },
  { name := "BLX_pred", mnemonic := "blx",
    slots := [.num, .num, .src],
    sites := [.effect .predicate 1, .operand .plain 0],
    reads := [.sp], writes := [.lr], groups := [.arm, .call, .relativeBranch], call := true,
      relative := true },
  { name := "BX", mnemonic := "bx",
    slots := [.src],
    sites := [.operand .plain 0],
    groups := [.arm], branch := true, indirect := true },
  { name := "BX_RET", mnemonic := "bx",
    slots := [.num, .src],
    sites := [.effect .predicate 0],
    reads := [.lr], groups := [.arm, .ret], branch := true, ret := true }]

end OperandReport.Arm
