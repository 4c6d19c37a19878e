/-!
# PowerPC instruction groups

What an instruction does to control flow, and what the processor has to support.
-/

namespace OperandReport.Power

/-- An instruction group.  The first one is no group; it ends group lists. -/
inductive Group where
  | none
  | jump
  | call
  | ret
  | interrupt
  | privileged
  | relativeBranch
  | wide
  | floatingPoint
  | altivec
  | vectorScalar
  | power8Vector
  | power9Vector
  | isa30
  | isa31
  | prefixed
  deriving DecidableEq, Repr, Inhabited

/-- The name of a group. -/
def Group.name : Group → String
  | .none => "invalid"
  | .jump => "jump"
  | .call => "call"
  | .ret => "return"
  | .interrupt => "int"
  | .privileged => "privilege"
  | .relativeBranch => "branch_relative"
  | .wide => "is64bit"
  | .floatingPoint => "fpu"
  | .altivec => "altivec"
  | .vectorScalar => "vsx"
  | .power8Vector => "p8vector"
  | .power9Vector => "p9vector"
  | .isa30 => "isa3_0"
  | .isa31 => "isa3_1"
  | .prefixed => "prefixinstrs"

end OperandReport.Power
