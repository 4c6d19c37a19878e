/-!
# Barriers

The scope of a memory, instruction or trace barrier.  An encoding that has no
name is kept as a reserved one.
-/

namespace OperandReport.Arm

/-- The scope of a barrier. -/
inductive Barrier where
  | oshLd
  | oshSt
  | osh
  | nshLd
  | nshSt
  | nsh
  | ishLd
  | ishSt
  | ish
  | ld
  | st
  | sy
  | csync
  /-- a scope without a name -/
  | reserved (code : Nat)
  deriving DecidableEq, Repr

namespace Barrier

/-- The scope of a memory barrier, from the low four bits.  The load variants came
with version 8 of the architecture. -/
def memory (v8 : Bool) (n : Nat) : Barrier :=
  match n % 16, v8 with
  | 15, _ => sy
  | 14, _ => st
  | 13, true => ld
  | 11, _ => ish
  | 10, _ => ishSt
  | 9, true => ishLd
  | 7, _ => nsh
  | 6, _ => nshSt
  | 5, true => nshLd
  | 3, _ => osh
  | 2, _ => oshSt
  | 1, true => oshLd
  | code, _ => reserved code

/-- The scope of an instruction barrier. -/
def instruction (n : Nat) : Barrier := if n = 15 then sy else reserved n

/-- The scope of a trace barrier. -/
def trace (n : Nat) : Barrier := if n = 0 then csync else reserved n

/-- The name of a scope. -/
def name : Barrier → String
  | oshLd => "OshLd"
  | oshSt => "OshSt"
  | osh => "Osh"
  | nshLd => "NshLd"
  | nshSt => "NshSt"
  | nsh => "Nsh"
  | ishLd => "IshLd"
  | ishSt => "IshSt"
  | ish => "Ish"
  | ld => "Ld"
  | st => "St"
  | sy => "Sy"
  | csync => "Csync"
  | reserved code => s!"Reserved({code})"

end Barrier

end OperandReport.Arm
