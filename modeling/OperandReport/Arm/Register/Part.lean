import OperandReport.Arm.Register

/-!
# Parts of ARM registers

A wide register overlaps narrower ones.  A part selector names one of them by its
width and its place: the second double register of a pair, say.
-/

namespace OperandReport.Arm

/-- A narrower register inside a wider one, by width and place. -/
inductive Part where
  | single (place : Nat)
  | double (place : Nat)
  | quad (place : Nat)
  | core (place : Nat)
  deriving DecidableEq, Repr

/-- The name of a part selector. -/
def Part.name : Part → String
  | .single k => s!"Ssub({k})"
  | .double k => s!"Dsub({k})"
  | .quad k => s!"Qsub({k})"
  | .core k => s!"Gsub({k})"

namespace Register

/-- The part of a register that a selector names, if it has that part. -/
def part? (r : Register) (part : Part) : Option Register := do
  let family ← r.family?
  let n ← r.index?
  match family, part with
  | .double, .single k => if n < 16 ∧ k < 2 then some (single (2 * n + k)) else Option.none
  | .quad, .double k => if k < 2 then some (double (2 * n + k)) else Option.none
  | .quad, .single k => if n < 8 ∧ k < 4 then some (single (4 * n + k)) else Option.none
  | .doublePair, .double k => if k < 2 then some (double (n + k)) else Option.none
  | .spacedPair, .double k => if k = 0 ∨ k = 2 then some (double (n + k)) else Option.none
  | .doubleQuad, .double k => if k < 4 then some (double (n + k)) else Option.none
  | .doubleQuad, .quad k => if n % 2 = 0 ∧ k < 2 then some (quad (n / 2 + k)) else Option.none
  | .corePair, .core k => if k < 2 then some (Register.core (n + k)) else Option.none
  | .quadPair, .quad k => if k < 2 then some (quad (n + k)) else Option.none
  | .quadPair, .double k => if k < 4 then some (double (2 * n + k)) else Option.none
  | .quadQuad, .quad k => if k < 4 then some (quad (n + k)) else Option.none
  | _, _ => Option.none

/-- The note on a register that lacks a part. -/
def partMissing (r : Register) (part : Part) : String :=
  s!"[arm::sub_reg] {r.name} has no {part.name}, passing it through"

/-- The part of a register, or else the register itself. -/
def partOrSelf (r : Register) (part : Part) : Register := (r.part? part).getD r

end Register

end OperandReport.Arm
