import OperandReport.Instruction

/-!
# Bitfields

A bitfield that is cleared or inserted arrives as an inverted mask: ones
everywhere but in the field.  It is reported by its lowest bit and its width, the
tight hull of the clear bits.
-/

namespace OperandReport.Arm

/-- A run of bits: the lowest one and how many. -/
structure Bitfield where
  low : Nat
  width : Nat
  deriving DecidableEq, Repr

/-- The hull of the clear bits of a mask; a mask without any gives an empty field
above the top bit. -/
def Bitfield.ofInvertedMask (mask : Word) : Bitfield :=
  let clear := (List.range 32).filter fun i => !mask.getLsbD i
  match clear.head?, clear.getLast? with
  | some low, some high => ⟨low, high + 1 - low⟩
  | _, _ => ⟨32, 0⟩

end OperandReport.Arm
