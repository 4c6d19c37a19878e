/-!
# ARM instruction groups

What an instruction does to control flow, and what the processor has to support.
-/

namespace OperandReport.Arm

/-- An instruction group.  The first one is no group; it ends group lists. -/
inductive Group where
  | none
  | jump
  | call
  | ret
  | interrupt
  | privileged
  | relativeBranch
  | arm
  | thumb
  | thumb1Only
  | thumb2
  | notMClass
  | mClass
  | v4T
  | v5T
  | v6
  | v6K
  | v6T2
  | v7
  | v8
  | v81M
  | vfp2
  | vfp3
  | fullHalfFloat
  | neon
  | dsp
  | dataBarrier
  | mve
  | mveFloat
  | v8Float
  | v83A
  | acquireRelease
  deriving DecidableEq, Repr, Inhabited

/-- The name of a group. -/
def Group.name : Group → String
  | .none => "invalid"
  | .jump => "jump"
  | .call => "call"
  | .ret => "return"
  | .interrupt => "int"
  | .privileged => "privilege"
  | .relativeBranch => "branch_relative"
  | .arm => "arm"
  | .thumb => "thumb"
  | .thumb1Only => "thumb1only"
  | .thumb2 => "thumb2"
  | .notMClass => "notmclass"
  | .mClass => "mclass"
  | .v4T => "v4t"
  | .v5T => "v5t"
  | .v6 => "v6"
  | .v6K => "v6k"
  | .v6T2 => "v6t2"
  | .v7 => "v7"
  | .v8 => "v8"
  | .v81M => "v8_1m"
  | .vfp2 => "vfp2"
  | .vfp3 => "vfp3"
  | .fullHalfFloat => "fullfp16"
  | .neon => "neon"
  | .dsp => "dsp"
  | .dataBarrier => "db"
  | .mve => "mve"
  | .mveFloat => "mvefloat"
  | .v8Float => "fparmv8"
  | .v83A => "v8_3a"
  | .acquireRelease => "acquirerelease"

end OperandReport.Arm
