import OperandReport.Instruction

/-!
# Packed addressing words

Shifter operands and the addressing modes arrive packed into a word, each with a
layout of its own.  A field is read as `w / 2 ^ low % 2 ^ width`, which is a pair
of divisions and easy to reason about.  Bits above the last field are ignored.

Codes that a layout leaves unallocated read as "no shift" and "plain offset".

## Main results

* `ShiftOperation.ofCode_code`, `Indexing.ofCode_code`: reading inverts writing.
* `Shifter.word_eq`, `Mode2.word_eq`, `Mode3.word_eq`, `Mode5.word_eq`: on
  allocated codes the fields add up to the word that they were read from.
-/

namespace OperandReport.Arm

/-- The shift operation packed into a shifter operand. -/
inductive ShiftOperation where
  | none
  | asr
  | lsl
  | lsr
  | ror
  | rrx
  | uxtw
  deriving DecidableEq, Repr, Inhabited

namespace ShiftOperation

/-- The operation of a three-bit code; anything else means no shift. -/
def ofCode : Nat → ShiftOperation
  | 1 => asr
  | 2 => lsl
  | 3 => lsr
  | 4 => ror
  | 5 => rrx
  | 6 => uxtw
  | _ => none

/-- The code of an operation. -/
def code : ShiftOperation → Nat
  | none => 0
  | asr => 1
  | lsl => 2
  | lsr => 3
  | ror => 4
  | rrx => 5
  | uxtw => 6

/-- The name of an operation. -/
def mnemonic : ShiftOperation → String
  | none => ""
  | asr => "asr"
  | lsl => "lsl"
  | lsr => "lsr"
  | ror => "ror"
  | rrx => "rrx"
  | uxtw => "uxtw"

@[simp] theorem ofCode_code (s : ShiftOperation) : ofCode s.code = s := by cases s <;> rfl

theorem code_ofCode {n : Nat} (h : n < 7) : (ofCode n).code = n := by
  have : ∀ m : Fin 7, (ofCode m.val).code = m.val := by decide
  exact this ⟨n, h⟩

end ShiftOperation

/-- Whether an offset is added to the base or subtracted from it. -/
inductive Direction where
  | add
  | subtract
  deriving DecidableEq, Repr, Inhabited

namespace Direction

/-- The direction of a sign bit. -/
def ofBit (n : Nat) : Direction := if n = 1 then subtract else add

/-- The offset is subtracted. -/
def isSubtract (d : Direction) : Bool := d == subtract

/-- The sign bit of a direction. -/
def bit (d : Direction) : Nat := d.isSubtract.toNat

end Direction

/-- When the base register is updated. -/
inductive Indexing where
  | offset
  | pre
  | post
  deriving DecidableEq, Repr, Inhabited

namespace Indexing

/-- The indexing of a two-bit code; an unallocated code means a plain offset. -/
def ofCode : Nat → Indexing
  | 1 => pre
  | 2 => post
  | _ => offset

/-- The code of an indexing. -/
def code : Indexing → Nat
  | offset => 0
  | pre => 1
  | post => 2

@[simp] theorem ofCode_code (i : Indexing) : ofCode i.code = i := by cases i <;> rfl

theorem code_ofCode {n : Nat} (h : n < 3) : (ofCode n).code = n := by
  have : ∀ m : Fin 3, (ofCode m.val).code = m.val := by decide
  exact this ⟨n, h⟩

end Indexing

/-- A shifter operand: what to shift by, and how. -/
structure Shifter where
  operation : ShiftOperation
  amount : Nat
  deriving DecidableEq, Repr

/-- Three bits of operation below the amount. -/
def Shifter.ofWord (w : Word) : Shifter where
  operation := .ofCode (w.toNat % 8)
  amount := w.toNat / 8

/-- Addressing mode 2: words and unsigned bytes.  The offset is the shift amount
where an index register is used. -/
structure Mode2 where
  offset : Nat
  direction : Direction
  shift : ShiftOperation
  indexing : Indexing
  deriving DecidableEq, Repr

/-- Twelve bits of offset, the sign, three bits of shift, two of indexing. -/
def Mode2.ofWord (w : Word) : Mode2 where
  offset := w.toNat % 4096
  direction := .ofBit (w.toNat / 4096 % 2)
  shift := .ofCode (w.toNat / 8192 % 8)
  indexing := .ofCode (w.toNat / 65536 % 4)

/-- Addressing mode 3: halfwords, signed bytes and doublewords. -/
structure Mode3 where
  offset : Nat
  direction : Direction
  indexing : Indexing
  deriving DecidableEq, Repr

/-- Eight bits of offset, the sign, two bits of indexing. -/
def Mode3.ofWord (w : Word) : Mode3 where
  offset := w.toNat % 256
  direction := .ofBit (w.toNat / 256 % 2)
  indexing := .ofCode (w.toNat / 512 % 4)

/-- Addressing mode 5: coprocessor and floating-point transfers.  The offset counts
transfer units. -/
structure Mode5 where
  offset : Nat
  direction : Direction
  deriving DecidableEq, Repr

/-- Eight bits of offset and the sign. -/
def Mode5.ofWord (w : Word) : Mode5 where
  offset := w.toNat % 256
  direction := .ofBit (w.toNat / 256 % 2)

/-- The offset in bytes, with transfer units of `unit` bytes. -/
def Mode5.distance (mode : Mode5) (unit : Nat) : Nat := mode.offset * unit

theorem Direction.bit_ofBit {n : Nat} (h : n < 2) : (ofBit n).bit = n := by
  have : ∀ m : Fin 2, (ofBit m.val).bit = m.val := by decide
  exact this ⟨n, h⟩

/-- An allocated shifter word is the sum of its fields. -/
theorem Shifter.word_eq {w : Word} (h : w.toNat % 8 ≠ 7) :
    (ofWord w).operation.code + 8 * (ofWord w).amount = w.toNat := by
  have := ShiftOperation.code_ofCode (n := w.toNat % 8) (by omega)
  simp only [ofWord, this]
  omega

/-- An allocated mode 2 word is the sum of its fields, up to bit 17. -/
theorem Mode2.word_eq {w : Word} (hs : w.toNat / 8192 % 8 ≠ 7) (hi : w.toNat / 65536 % 4 ≠ 3) :
    (ofWord w).offset + 4096 * (ofWord w).direction.bit + 8192 * (ofWord w).shift.code +
      65536 * (ofWord w).indexing.code = w.toNat % 0x40000 := by
  have h1 := Direction.bit_ofBit (n := w.toNat / 4096 % 2) (by omega)
  have h2 := ShiftOperation.code_ofCode (n := w.toNat / 8192 % 8) (by omega)
  have h3 := Indexing.code_ofCode (n := w.toNat / 65536 % 4) (by omega)
  simp only [ofWord, h1, h2, h3]
  omega

/-- An allocated mode 3 word is the sum of its fields, up to bit 10. -/
theorem Mode3.word_eq {w : Word} (hi : w.toNat / 512 % 4 ≠ 3) :
    (ofWord w).offset + 256 * (ofWord w).direction.bit + 512 * (ofWord w).indexing.code =
      w.toNat % 0x800 := by
  have h1 := Direction.bit_ofBit (n := w.toNat / 256 % 2) (by omega)
  have h2 := Indexing.code_ofCode (n := w.toNat / 512 % 4) (by omega)
  simp only [ofWord, h1, h2]
  omega

/-- A mode 5 word is the sum of its fields, up to bit 8. -/
theorem Mode5.word_eq (w : Word) :
    (ofWord w).offset + 256 * (ofWord w).direction.bit = w.toNat % 0x200 := by
  have h1 := Direction.bit_ofBit (n := w.toNat / 256 % 2) (by omega)
  simp only [ofWord, h1]
  omega

end OperandReport.Arm
