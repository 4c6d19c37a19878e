import OperandReport.Power.Template

/-!
# Branch templates

Branches, with a predicate or with the fields of the condition spelled out.
-/

namespace OperandReport.Power

/-- Branches, with a predicate or with the fields of the condition spelled out. -/
def branchTemplates : List Template := [
  { name := "B", mnemonic := "b",
    slots := [.num],
    sites := [.operand .branch 0],
    branch := true, groups := [.relativeBranch] },
  { name := "BA", mnemonic := "ba",
    slots := [.num],
    sites := [.operand .absoluteBranch 0],
    branch := true, absolute := true },
  { name := "BL", mnemonic := "bl",
    slots := [.num],
    sites := [.operand .branch 0],
    writes := [.lr], call := true, groups := [.call, .relativeBranch] },
  { name := "BLA", mnemonic := "bla",
    slots := [.num],
    sites := [.operand .absoluteBranch 0],
    writes := [.lr], call := true, groups := [.call], absolute := true },
  { name := "BLR", mnemonic := "blr",
    slots := [],
    sites := [],
    reads := [.lr], branch := true, indirect := true, ret := true, groups := [.ret] },
  { name := "BCTR", mnemonic := "bctr",
    slots := [],
    sites := [],
    reads := [.ctr], branch := true, indirect := true },
  { name := "BCTRL", mnemonic := "bctrl",
    slots := [],
    sites := [],
    reads := [.ctr], writes := [.lr], call := true, groups := [.call] },
  { name := "BCC", mnemonic := "b",
    slots := [.num, .src, .num],
    sites := [.condition .predicate 0, .condition .predicateHint 0, .operand .predicateRegister 0,
      .operand .branch 2],
    branch := true, groups := [.relativeBranch] },
  { name := "BCCA", mnemonic := "b",
    slots := [.num, .src, .num],
    sites := [.condition .predicate 0, .condition .predicateHint 0, .operand .predicateRegister 0,
      .operand .absoluteBranch 2],
    branch := true, absolute := true },
  { name := "BCCL", mnemonic := "b",
    slots := [.num, .src, .num],
    sites := [.condition .predicate 0, .condition .predicateHint 0, .operand .predicateRegister 0,
      .operand .branch 2],
    writes := [.lr], call := true, groups := [.call, .relativeBranch] },
  { name := "BCCLA", mnemonic := "b",
    slots := [.num, .src, .num],
    sites := [.condition .predicate 0, .condition .predicateHint 0, .operand .predicateRegister 0,
      .operand .absoluteBranch 2],
    writes := [.lr], call := true, groups := [.call], absolute := true },
  { name := "BCCLR", mnemonic := "b",
    slots := [.num, .src],
    sites := [.condition .predicate 0, .condition .predicateHint 0, .operand .predicateRegister 0],
    reads := [.lr], branch := true, indirect := true, ret := true, groups := [.ret] },
  { name := "BCCCTR", mnemonic := "b",
    slots := [.num, .src],
    sites := [.condition .predicate 0, .condition .predicateHint 0, .operand .predicateRegister 0],
    reads := [.ctr], branch := true, indirect := true },
  { name := "BDNZ", mnemonic := "bdnz",
    slots := [.num],
    sites := [.operand .branch 0],
    condition := some (.constant 16, .constant 0), branch := true, groups := [.relativeBranch] },
  { name := "BDZ", mnemonic := "bdz",
    slots := [.num],
    sites := [.operand .branch 0],
    condition := some (.constant 18, .constant 0), branch := true, groups := [.relativeBranch] },
  { name := "BDNZA", mnemonic := "bdnza",
    slots := [.num],
    sites := [.operand .absoluteBranch 0],
    condition := some (.constant 16, .constant 0), branch := true, absolute := true },
  { name := "BDZA", mnemonic := "bdza",
    slots := [.num],
    sites := [.operand .absoluteBranch 0],
    condition := some (.constant 18, .constant 0), branch := true, absolute := true },
  { name := "BDNZL", mnemonic := "bdnzl",
    slots := [.num],
    sites := [.operand .branch 0],
    condition := some (.constant 16, .constant 0), writes := [.lr], call := true,
      groups := [.call, .relativeBranch] },
  { name := "BDNZLR", mnemonic := "bdnzlr",
    slots := [],
    sites := [],
    condition := some (.constant 16, .constant 0), reads := [.lr], branch := true,
      indirect := true, ret := true, groups := [.ret] },
  { name := "gBC", mnemonic := "bc",
    slots := [.num, .src, .num],
    sites := [.operand .plain 0, .operand .plain 1, .operand .branch 2],
    condition := some (.slot 0, .slot 1), branch := true, groups := [.relativeBranch] },
  { name := "gBCA", mnemonic := "bca",
    slots := [.num, .src, .num],
    sites := [.operand .plain 0, .operand .plain 1, .operand .absoluteBranch 2],
    condition := some (.slot 0, .slot 1), branch := true, absolute := true },
  { name := "gBCL", mnemonic := "bcl",
    slots := [.num, .src, .num],
    sites := [.operand .plain 0, .operand .plain 1, .operand .branch 2],
    condition := some (.slot 0, .slot 1), writes := [.lr], call := true,
      groups := [.call, .relativeBranch] },
  { name := "gBCLA", mnemonic := "bcla",
    slots := [.num, .src, .num],
    sites := [.operand .plain 0, .operand .plain 1, .operand .absoluteBranch 2],
    condition := some (.slot 0, .slot 1), writes := [.lr], call := true, groups := [.call],
      absolute := true },
  { name := "gBCat", mnemonic := "bc",
    slots := [.num, .num, .src, .num],
    sites := [.condition .hint 1, .operand .plain 0, .operand .plain 2, .operand .branch 3],
    condition := some (.slot 0, .slot 2), branch := true, groups := [.relativeBranch] },
  { name := "BC", mnemonic := "bt",
    slots := [.src, .num],
    sites := [.operand .plain 0, .operand .branch 1],
    condition := some (.constant 12, .slot 0), branch := true, groups := [.relativeBranch] },
  { name := "BCn", mnemonic := "bf",
    slots := [.src, .num],
    sites := [.operand .plain 0, .operand .branch 1],
    condition := some (.constant 4, .slot 0), branch := true, groups := [.relativeBranch] },
  { name := "BL_TLS", mnemonic := "bl",
    slots := [.num, .num],
    sites := [.operand .annotatedCall 0],
    writes := [.lr], call := true, groups := [.call, .relativeBranch] }]

end OperandReport.Power
