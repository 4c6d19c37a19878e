import OperandReport.Arm.Template

/-!
# System templates

Status registers, barriers, interrupts and coprocessor moves.
-/

namespace OperandReport.Arm

/-- Status registers, barriers, interrupts and coprocessor moves. -/
def systemTemplates : List Template := [
  { name := "SETEND", mnemonic := "setend",
    slots := [.num],
    sites := [.operand .endianness 0],
    groups := [.arm, .v6] },
  { name := "CPS2p", mnemonic := "cps",
    slots := [.num, .num],
    sites := [.effect .interruptMode 0, .effect .interruptMask 1],
    groups := [.arm, .privileged] },
  { name := "CPS3p", mnemonic := "cps",
    slots := [.num, .num, .num],
    sites := [.effect .interruptMode 0, .effect .interruptMask 1, .operand .plain 2],
    groups := [.arm, .privileged] },
  { name := "MSR", mnemonic := "msr",
    slots := [.num, .src, .num, .src],
    sites := [.effect .predicate 2, .operand .statusMask 0, .operand .plain 1],
    groups := [.arm] },
  { name := "MSRbanked", mnemonic := "msr",
    slots := [.num, .src, .num, .src],
    sites := [.effect .predicate 2, .operand .bankedRegister 0, .operand .plain 1],
    groups := [.arm, .privileged] },
  { name := "MRSbanked", mnemonic := "mrs",
    slots := [.dst, .num, .num, .src],
    sites := [.effect .predicate 2, .operand .plain 0, .operand .bankedRegister 1],
    groups := [.arm, .privileged] },
  { name := "t2MSR_M", mnemonic := "msr",
    slots := [.num, .src, .num, .src],
    sites := [.effect .predicate 2, .operand .statusMask 0, .operand .plain 1],
    groups := [.thumb2, .mClass] },
  { name := "DMB", mnemonic := "dmb",
    slots := [.num],
    sites := [.effect .memoryBarrier 0],
    groups := [.arm, .dataBarrier] },
  { name := "DSB", mnemonic := "dsb",
    slots := [.num],
    sites := [.effect .memoryBarrier 0],
    groups := [.arm, .dataBarrier] },
  { name := "ISB", mnemonic := "isb",
    slots := [.num],
    sites := [.effect .instructionBarrier 0],
    groups := [.arm, .dataBarrier] },
  { name := "t2TSB", mnemonic := "tsb",
    slots := [.num, .num, .src],
    sites := [.effect .predicate 1, .effect .traceBarrier 0],
    groups := [.thumb2] },
  { name := "SVC", mnemonic := "svc",
    slots := [.num, .num, .src],
    sites := [.effect .predicate 1, .operand .plain 0],
    groups := [.arm, .interrupt] },
  { name := "BKPT", mnemonic := "bkpt",
    slots := [.num],
    sites := [.operand .plain 0],
    groups := [.arm] },
  { name := "MCR", mnemonic := "mcr",
    slots := [.num, .num, .src, .num, .num, .num, .num, .src],
    sites := [.effect .predicate 6, .operand .coprocessor 0, .operand .plain 1, .operand .plain 2,
      .operand .coprocessorRegister 3, .operand .coprocessorRegister 4, .operand .plain 5],
    groups := [.arm] },
  { name := "FMSTAT", mnemonic := "vmrs",
    slots := [.num, .src],
    sites := [.effect .predicate 0],
    reads := [.fpscrNzcv], writes := [.cpsr], groups := [.vfp2] },
  { name := "VMRS", mnemonic := "vmrs",
    slots := [.dst, .num, .src],
    sites := [.effect .predicate 1, .operand .plain 0],
    reads := [.fpscr], groups := [.vfp2] }]

end OperandReport.Arm
