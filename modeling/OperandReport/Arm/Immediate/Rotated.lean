import OperandReport.Instruction

/-!
# Rotated immediates

A twelve-bit immediate is a byte and a four-bit rotation: the byte is rotated
right by twice the rotation.  Several encodings may give one value; the canonical
one has the least rotation.

To encode a value is to find where its byte starts, which is an even place.  Two
places are tried: the lowest bit that is set, and then, for a byte that wraps
around the top of the word, the lowest one above the low six.
-/

namespace OperandReport.Arm.RotatedImmediate

/-- The distance by which an encoding rotates its byte. -/
def rotation (encoded : Word) : Nat := 2 * (encoded.toNat / 256 % 16)

/-- The value of an encoding; bits above the low twelve are ignored. -/
def expand (encoded : Word) : Word :=
  (BitVec.ofNat 32 (encoded.toNat % 256)).rotateRight (rotation encoded)

/-- The same distance as it is shown: the rotation in place, moved down to the bit above the
lowest one. -/
def shownRotation (encoded : Word) : Nat := ((encoded &&& 0xf00) >>> 7).toNat

/-- The two ways to read the rotation agree. -/
theorem shownRotation_eq (encoded : Word) : shownRotation encoded = rotation encoded := by
  have hField : (encoded.toNat &&& 0xf00) / 256 = encoded.toNat / 256 % 16 := by
    have hShift := Nat.shiftRight_and_distrib (a := encoded.toNat) (b := 0xf00) (i := 8)
    rw [Nat.shiftRight_eq_div_pow, Nat.shiftRight_eq_div_pow] at hShift
    exact hShift.trans (Nat.and_two_pow_sub_one_eq_mod _ 4)
  have hBelow : (encoded.toNat &&& 0xf00) % 256 = 0 := by
    have hLow := Nat.and_mod_two_pow (a := encoded.toNat) (b := 0xf00) (n := 8)
    rw [hLow]
    exact Nat.and_zero _
  have hShown : shownRotation encoded = (encoded.toNat &&& 0xf00) / 128 := by
    rw [shownRotation, BitVec.toNat_ushiftRight, Nat.shiftRight_eq_div_pow, BitVec.toNat_and]
    rfl
  rw [hShown, rotation]
  omega

/-- All bits but the low eight are clear. -/
def isByte (value : Word) : Bool := value.toNat < 256

/-- The even place at or just below the lowest bit that is set. -/
def evenPlace (value : Word) : Nat := value.ctz.toNat / 2 * 2

/-- Where the byte of a value starts, if the value has an encoding. -/
def byteStart (value : Word) : Nat :=
  if isByte value then 0
  else
    let low := evenPlace value
    if isByte (value.rotateRight low) then low
    else if value &&& 63 ≠ 0 then
      let high := evenPlace (value &&& ~~~63)
      if isByte (value.rotateRight high) then high else low
    else low

/-- The distance by which an encoding of the value has to rotate. -/
def rotationFor (value : Word) : Nat := (32 - byteStart value) % 32

/-- The canonical encoding of a value, if it has any. -/
def encode? (value : Word) : Option Nat :=
  if isByte value then some value.toNat
  else
    let byte := value.rotateLeft (rotationFor value)
    if isByte byte then some (256 * (rotationFor value / 2) + byte.toNat) else none

end OperandReport.Arm.RotatedImmediate

namespace OperandReport.Arm

/-- A shift amount as encoded: zero means thirty-two. -/
def shiftDistance (encoded : Nat) : Nat := if encoded = 0 then 32 else encoded

end OperandReport.Arm
