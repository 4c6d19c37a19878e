import OperandReport.Instruction

/-!
# Vector immediates

A vector move carries a byte and a five-bit pattern that says how the byte is
spread over an element: shifted into one byte of the element, shifted with ones
below it, or as a mask with one bit for each byte of the element.
-/

namespace OperandReport.Arm

/-- An element value and the size of the element in bits. -/
structure VectorImmediate where
  value : Nat
  bits : Nat
  deriving DecidableEq, Repr

namespace VectorImmediate

/-- The value whose byte `k` is all ones where bit `k` of the mask is set. -/
def byteMask (mask : Nat) : Nat :=
  (List.range 8).foldl (fun v k => if mask.testBit k then v + 255 <<< (8 * k) else v) 0

/-- The pattern above the byte of an encoding. -/
def pattern (encoded : Word) : Nat := encoded.toNat / 256 % 32

/-- The distance by which a pattern shifts its byte. -/
def shift (pattern : Nat) : Nat := 8 * (pattern / 2 % 4)

/-- The distance by which a pattern shifts its byte over ones. -/
def shiftOverOnes (pattern : Nat) : Nat := 8 * (1 + pattern % 2)

/-- Expands a byte below a five-bit pattern; some patterns stand for nothing. -/
def expand? (encoded : Word) : Option VectorImmediate :=
  let byte := encoded.toNat % 256
  let pattern := pattern encoded
  let low := pattern % 16
  if pattern = 14 then some ⟨byte, 8⟩
  else if low / 4 = 2 then some ⟨byte <<< shift pattern, 16⟩
  else if low < 8 then some ⟨byte <<< shift pattern, 32⟩
  else if low / 2 = 6 then some ⟨(byte + 1) <<< shiftOverOnes pattern - 1, 32⟩
  else if pattern = 30 then some ⟨byteMask byte, 64⟩
  else none

end VectorImmediate

end OperandReport.Arm
