import Mathlib.Algebra.Group.Nat.Defs
import OperandReport.Arm.PackedWord

/-!
# Packed words taken apart

A layout puts the codes of its parts side by side, from the lowest bit on.  Reading a word by a
layout takes it apart: on allocated codes the parts, each at its place, add up to the bits
below the end of the layout, and the bits above are not looked at.  So nothing of an allocated
word is lost below the end, and as the parts can be chosen freely, no two of them share a bit.

Codes are looked at here as bits of the word, and by division in the layouts; `extract_eq_iff`
is the bridge.

## Main results

* `TakesApart.of_whole`: the sum of the parts tells allocated words apart.
* `packedWords_takenApart`: the four layouts, and what an unallocated code reads as.
-/

namespace OperandReport.Arm

/-! ## Layouts -/

/-- A reading of words takes the low `bits` bits apart.  On allocated words the parts, put
together, are these bits; words that agree on them are read alike, and allocated words that are
read alike agree on them; and any parts in their ranges are read from an allocated word. -/
structure TakesApart {τ : Type} (read : Word → τ) (whole : τ → Nat) (bits : Nat)
    (Allocated : Word → Prop) (InRange : τ → Prop) : Prop where
  whole_eq : ∀ w, Allocated w → whole (read w) = w.toNat % 2 ^ bits
  ignores_above : ∀ v w : Word, v.toNat % 2 ^ bits = w.toNat % 2 ^ bits → read v = read w
  injective : ∀ v w, Allocated v → Allocated w → read v = read w →
    v.toNat % 2 ^ bits = w.toNat % 2 ^ bits
  onto : ∀ parts, InRange parts → ∃ w, Allocated w ∧ read w = parts

/-- The sum of the parts tells allocated words apart, and parts are read from the word that
is their sum. -/
theorem TakesApart.of_whole {τ : Type} {read : Word → τ} {whole : τ → Nat} {bits : Nat}
    {Allocated : Word → Prop} {InRange : τ → Prop}
    (hWhole : ∀ w, Allocated w → whole (read w) = w.toNat % 2 ^ bits)
    (hAbove : ∀ v w : Word, v.toNat % 2 ^ bits = w.toNat % 2 ^ bits → read v = read w)
    (hFits : ∀ parts, InRange parts → whole parts < 2 ^ 32)
    (hBack : ∀ parts w, InRange parts → w.toNat = whole parts → Allocated w ∧ read w = parts) :
    TakesApart read whole bits Allocated InRange where
  whole_eq := hWhole
  ignores_above := hAbove
  injective := by
    intro v w hv hw hSame
    rw [← hWhole v hv, ← hWhole w hw, hSame]
  onto := by
    intro parts hRange
    refine ⟨.ofNat 32 (whole parts), hBack parts _ hRange ?_⟩
    rw [BitVec.toNat_ofNat, Nat.mod_eq_of_lt (hFits parts hRange)]

/-! ## Codes in a word -/

theorem extract_eq_iff (w : Word) (low width code : Nat) (hCode : code < 2 ^ width) :
    w.extractLsb' low width = .ofNat width code ↔ w.toNat / 2 ^ low % 2 ^ width = code := by
  rw [← BitVec.toNat_inj, BitVec.extractLsb'_toNat, BitVec.toNat_ofNat, Nat.mod_eq_of_lt hCode,
    Nat.shiftRight_eq_div_pow]

theorem lowThree_eq_iff {w : Word} : w &&& 7 = 7 ↔ w.toNat % 8 = 7 := by
  have hLow : w.toNat &&& 7 = w.toNat % 8 := Nat.and_two_pow_sub_one_eq_mod w.toNat 3
  rw [← BitVec.toNat_inj, BitVec.toNat_and]
  exact hLow ▸ Iff.rfl

theorem ShiftOperation.code_lt (s : ShiftOperation) : s.code < 7 := by
  cases s <;> decide

theorem Indexing.code_lt (i : Indexing) : i.code < 3 := by
  cases i <;> decide

theorem Direction.bit_lt (d : Direction) : d.bit < 2 := by
  cases d <;> decide

theorem Direction.ofBit_bit (d : Direction) : ofBit d.bit = d := by
  cases d <;> rfl

/-! ## The four layouts -/

/-- Three bits of operation, and the amount above them. -/
theorem Shifter.takesApart :
    TakesApart ofWord (fun s => s.operation.code + 8 * s.amount) 32 (fun w => w &&& 7 ≠ 7)
      (·.amount < 2 ^ 29) := by
  refine .of_whole (fun w hw => ?_) (fun v w hSame => ?_) (fun parts hRange => ?_)
    (fun parts w hRange hWord => ?_)
  · rw [ne_eq, lowThree_eq_iff] at hw
    rw [word_eq hw, Nat.mod_eq_of_lt w.isLt]
  · rw [Nat.mod_eq_of_lt v.isLt, Nat.mod_eq_of_lt w.isLt] at hSame
    rw [BitVec.eq_of_toNat_eq hSame]
  · have hCode := parts.operation.code_lt
    omega
  · have hCode := parts.operation.code_lt
    have hLow : w.toNat % 8 = parts.operation.code := by omega
    have hHigh : w.toNat / 8 = parts.amount := by omega
    refine ⟨?_, ?_⟩
    · rw [ne_eq, lowThree_eq_iff]
      omega
    · rw [ofWord, hLow, hHigh, ShiftOperation.ofCode_code]

/-- Twelve bits of offset, the sign, three bits of shift, two of indexing. -/
theorem Mode2.takesApart :
    TakesApart ofWord
      (fun m => m.offset + 4096 * m.direction.bit + 8192 * m.shift.code +
        65536 * m.indexing.code) 18
      (fun w => w.extractLsb' 13 3 ≠ 7 ∧ w.extractLsb' 16 2 ≠ 3) (·.offset < 2 ^ 12) := by
  refine .of_whole (fun w hw => ?_) (fun v w hSame => ?_) (fun parts hRange => ?_)
    (fun parts w hRange hWord => ?_)
  · exact word_eq (mt (extract_eq_iff w 13 3 7 (by decide)).mpr hw.1)
      (mt (extract_eq_iff w 16 2 3 (by decide)).mpr hw.2)
  · have hOffset : v.toNat % 4096 = w.toNat % 4096 := by omega
    have hSign : v.toNat / 4096 % 2 = w.toNat / 4096 % 2 := by omega
    have hShift : v.toNat / 8192 % 8 = w.toNat / 8192 % 8 := by omega
    have hIndexing : v.toNat / 65536 % 4 = w.toNat / 65536 % 4 := by omega
    rw [ofWord, hOffset, hSign, hShift, hIndexing, ofWord]
  · have hSign := parts.direction.bit_lt
    have hShift := parts.shift.code_lt
    have hIndexing := parts.indexing.code_lt
    omega
  · have hSign := parts.direction.bit_lt
    have hShift := parts.shift.code_lt
    have hIndexing := parts.indexing.code_lt
    have hOffset : w.toNat % 4096 = parts.offset := by omega
    have hSignBit : w.toNat / 4096 % 2 = parts.direction.bit := by omega
    have hShiftCode : w.toNat / 8192 % 8 = parts.shift.code := by omega
    have hIndexingCode : w.toNat / 65536 % 4 = parts.indexing.code := by omega
    have hShiftOther : w.toNat / 8192 % 8 ≠ 7 := by omega
    have hIndexingOther : w.toNat / 65536 % 4 ≠ 3 := by omega
    refine ⟨⟨mt (extract_eq_iff w 13 3 7 (by decide)).mp hShiftOther,
      mt (extract_eq_iff w 16 2 3 (by decide)).mp hIndexingOther⟩, ?_⟩
    rw [ofWord, hOffset, hSignBit, hShiftCode, hIndexingCode, Direction.ofBit_bit,
      ShiftOperation.ofCode_code, Indexing.ofCode_code]

/-- Eight bits of offset, the sign, two bits of indexing. -/
theorem Mode3.takesApart :
    TakesApart ofWord
      (fun m => m.offset + 256 * m.direction.bit + 512 * m.indexing.code) 11
      (fun w => w.extractLsb' 9 2 ≠ 3) (·.offset < 2 ^ 8) := by
  refine .of_whole (fun w hw => ?_) (fun v w hSame => ?_) (fun parts hRange => ?_)
    (fun parts w hRange hWord => ?_)
  · exact word_eq (mt (extract_eq_iff w 9 2 3 (by decide)).mpr hw)
  · have hOffset : v.toNat % 256 = w.toNat % 256 := by omega
    have hSign : v.toNat / 256 % 2 = w.toNat / 256 % 2 := by omega
    have hIndexing : v.toNat / 512 % 4 = w.toNat / 512 % 4 := by omega
    rw [ofWord, hOffset, hSign, hIndexing, ofWord]
  · have hSign := parts.direction.bit_lt
    have hIndexing := parts.indexing.code_lt
    omega
  · have hSign := parts.direction.bit_lt
    have hIndexing := parts.indexing.code_lt
    have hOffset : w.toNat % 256 = parts.offset := by omega
    have hSignBit : w.toNat / 256 % 2 = parts.direction.bit := by omega
    have hIndexingCode : w.toNat / 512 % 4 = parts.indexing.code := by omega
    have hOther : w.toNat / 512 % 4 ≠ 3 := by omega
    refine ⟨mt (extract_eq_iff w 9 2 3 (by decide)).mp hOther, ?_⟩
    rw [ofWord, hOffset, hSignBit, hIndexingCode, Direction.ofBit_bit, Indexing.ofCode_code]

/-- Eight bits of offset and the sign; every word is allocated. -/
theorem Mode5.takesApart :
    TakesApart ofWord (fun m => m.offset + 256 * m.direction.bit) 9 (fun _ => True)
      (·.offset < 2 ^ 8) := by
  refine .of_whole (fun w _ => word_eq w) (fun v w hSame => ?_) (fun parts hRange => ?_)
    (fun parts w hRange hWord => ⟨trivial, ?_⟩)
  · have hOffset : v.toNat % 256 = w.toNat % 256 := by omega
    have hSign : v.toNat / 256 % 2 = w.toNat / 256 % 2 := by omega
    rw [ofWord, hOffset, hSign, ofWord]
  · have hSign := parts.direction.bit_lt
    omega
  · have hSign := parts.direction.bit_lt
    have hOffset : w.toNat % 256 = parts.offset := by omega
    have hSignBit : w.toNat / 256 % 2 = parts.direction.bit := by omega
    rw [ofWord, hOffset, hSignBit, Direction.ofBit_bit]

/-! ## Unallocated codes -/

theorem Shifter.operation_of_unallocated {w : Word} (h : w &&& 7 = 7) :
    (ofWord w).operation = .none := by
  show ShiftOperation.ofCode (w.toNat % 8) = .none
  rw [lowThree_eq_iff.mp h]
  rfl

theorem Mode2.shift_of_unallocated {w : Word} (h : w.extractLsb' 13 3 = 7) :
    (ofWord w).shift = .none := by
  have hCode : w.toNat / 8192 % 8 = 7 := (extract_eq_iff w 13 3 7 (by decide)).mp h
  show ShiftOperation.ofCode (w.toNat / 8192 % 8) = .none
  rw [hCode]
  rfl

theorem Mode2.indexing_of_unallocated {w : Word} (h : w.extractLsb' 16 2 = 3) :
    (ofWord w).indexing = .offset := by
  have hCode : w.toNat / 65536 % 4 = 3 := (extract_eq_iff w 16 2 3 (by decide)).mp h
  show Indexing.ofCode (w.toNat / 65536 % 4) = .offset
  rw [hCode]
  rfl

theorem Mode3.indexing_of_unallocated {w : Word} (h : w.extractLsb' 9 2 = 3) :
    (ofWord w).indexing = .offset := by
  have hCode : w.toNat / 512 % 4 = 3 := (extract_eq_iff w 9 2 3 (by decide)).mp h
  show Indexing.ofCode (w.toNat / 512 % 4) = .offset
  rw [hCode]
  rfl

/-- Each of the four layouts takes the bits below its end apart, from the lowest bit on: the
parts of an allocated word add up to these bits, the bits above are ignored, and no two
allocated words that differ below the end are read alike.  An unallocated code of a shift reads
as no shift, and one of an indexing as a plain offset. -/
theorem packedWords_takenApart :
    TakesApart Shifter.ofWord (fun s => s.operation.code + 8 * s.amount) 32
      (fun w => w &&& 7 ≠ 7) (·.amount < 2 ^ 29) ∧
    TakesApart Mode2.ofWord
      (fun m => m.offset + 4096 * m.direction.bit + 8192 * m.shift.code +
        65536 * m.indexing.code) 18
      (fun w => w.extractLsb' 13 3 ≠ 7 ∧ w.extractLsb' 16 2 ≠ 3) (·.offset < 2 ^ 12) ∧
    TakesApart Mode3.ofWord
      (fun m => m.offset + 256 * m.direction.bit + 512 * m.indexing.code) 11
      (fun w => w.extractLsb' 9 2 ≠ 3) (·.offset < 2 ^ 8) ∧
    TakesApart Mode5.ofWord (fun m => m.offset + 256 * m.direction.bit) 9 (fun _ => True)
      (·.offset < 2 ^ 8) ∧
    (∀ w : Word, w &&& 7 = 7 → (Shifter.ofWord w).operation = .none) ∧
    (∀ w : Word, w.extractLsb' 13 3 = 7 → (Mode2.ofWord w).shift = .none) ∧
    (∀ w : Word, w.extractLsb' 16 2 = 3 → (Mode2.ofWord w).indexing = .offset) ∧
    ∀ w : Word, w.extractLsb' 9 2 = 3 → (Mode3.ofWord w).indexing = .offset :=
  ⟨Shifter.takesApart, Mode2.takesApart, Mode3.takesApart, Mode5.takesApart,
    fun _ => Shifter.operation_of_unallocated, fun _ => Mode2.shift_of_unallocated,
    fun _ => Mode2.indexing_of_unallocated, fun _ => Mode3.indexing_of_unallocated⟩

/-- A word with an unallocated shift is read like one without a shift. -/
example : Mode2.ofWord 0xe000 = Mode2.ofWord 0 := by
  decide

end OperandReport.Arm
