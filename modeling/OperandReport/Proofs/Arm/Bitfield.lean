import Mathlib.Algebra.Group.Nat.Defs
import Mathlib.Data.List.Pairwise
import OperandReport.Proofs.Arm.Visit

/-!
# Bitfields under inverted masks

A mask that is not all ones has a lowest and a highest clear bit, and its field is what lies
between them.  `IsHull` says so without a search: both ends are clear, and no clear bit is
outside.  A mask has one hull at most, so that two ways to find a field agree once both find
a hull: the list of the clear bits gives it, and so do the zeros at both ends of the
complement.

The other way around, the mask of a field has the field as its hull.  A mask is lost only if
a set bit stands between two clear ones.

## Main results

* `IsHull.unique`: a mask has one hull at most.
* `isHull_ofInvertedMask`, `isHull_ofZeroCounts`: both ways find it.
* `isHull_invertedMask`: the mask of a field has the field as its hull.
* `ofInvertedMask_hull`: what is found, what is recovered from it, and what is reported.
-/

namespace OperandReport.Arm

namespace Bitfield

/-- The bit lies in the field. -/
def Covers (f : Bitfield) (i : Nat) : Prop := f.low ≤ i ∧ i < f.low + f.width

/-- The field has a bit and ends within the word, both of its ends are clear in the mask, and
it covers every clear bit. -/
structure IsHull (mask : Word) (f : Bitfield) : Prop where
  width_pos : 1 ≤ f.width
  within : f.low + f.width ≤ 32
  low_clear : mask.getLsbD f.low = false
  high_clear : mask.getLsbD (f.low + f.width - 1) = false
  covers : ∀ i < 32, mask.getLsbD i = false → f.Covers i

/-- No set bit stands between two clear ones. -/
def Contiguous (mask : Word) : Prop :=
  ∀ i j k, i ≤ j → j ≤ k → k < 32 → mask.getLsbD i = false → mask.getLsbD k = false →
    mask.getLsbD j = false

/-- The mask of a field: ones everywhere but in it. -/
def invertedMask (f : Bitfield) : Word := ~~~BitVec.ofNat 32 ((2 ^ f.width - 1) * 2 ^ f.low)

/-- The field between the zeros below and the zeros above the ones of the complement. -/
def ofZeroCounts (mask : Word) : Bitfield where
  low := (~~~mask).ctz.toNat
  width := 32 - (~~~mask).clz.toNat - (~~~mask).ctz.toNat

variable {mask : Word} {f g : Bitfield}

/-! ## Hulls -/

/-- A hull starts and ends within every other one. -/
theorem IsHull.within_other (hf : IsHull mask f) (hg : IsHull mask g) :
    g.low ≤ f.low ∧ f.low + f.width ≤ g.low + g.width := by
  have hPos := hf.width_pos
  have hEnd := hf.within
  obtain ⟨hLow, _⟩ := hg.covers f.low (by omega) hf.low_clear
  obtain ⟨_, hHigh⟩ := hg.covers (f.low + f.width - 1) (by omega) hf.high_clear
  exact ⟨hLow, by omega⟩

theorem IsHull.unique (hf : IsHull mask f) (hg : IsHull mask g) : f = g := by
  obtain ⟨hLow, hHigh⟩ := hf.within_other hg
  obtain ⟨hLow', hHigh'⟩ := hg.within_other hf
  obtain ⟨low, width⟩ := f
  obtain ⟨low', width'⟩ := g
  dsimp only at hLow hHigh hLow' hHigh'
  have hSameLow : low = low' := by omega
  have hSameWidth : width = width' := by omega
  rw [hSameLow, hSameWidth]

/-- A mask that is not all ones has a clear bit. -/
theorem exists_clear (hMask : mask ≠ .allOnes 32) : ∃ i < 32, mask.getLsbD i = false := by
  refine Classical.byContradiction fun hNone => hMask ?_
  refine BitVec.eq_of_getLsbD_eq fun i hi => ?_
  rw [BitVec.getLsbD_allOnes, decide_eq_true hi]
  exact (Bool.not_eq_false _).mp fun hClear => hNone ⟨i, hi, hClear⟩

/-! ## The clear bits in a list -/

/-- The clear bits of a mask, the lowest one first. -/
def clearBits (mask : Word) : List Nat := (List.range 32).filter fun i => !mask.getLsbD i

theorem mem_clearBits {i : Nat} : i ∈ clearBits mask ↔ i < 32 ∧ mask.getLsbD i = false := by
  simp [clearBits]

theorem pairwise_clearBits (mask : Word) : (clearBits mask).Pairwise (· ≤ ·) :=
  List.pairwise_le_range.filter _

/-- Where there are clear bits, the first and the last of them are the ends of the field. -/
theorem ofInvertedMask_eq (hSome : clearBits mask ≠ []) :
    ofInvertedMask mask = ⟨(clearBits mask).head hSome,
      (clearBits mask).getLast hSome + 1 - (clearBits mask).head hSome⟩ := by
  have hFirst := List.head?_eq_some_head hSome
  have hLast := List.getLast?_eq_some_getLast hSome
  unfold clearBits at hFirst hLast
  unfold ofInvertedMask
  dsimp only
  rw [hFirst, hLast]
  rfl

theorem isHull_ofInvertedMask (hMask : mask ≠ .allOnes 32) :
    IsHull mask (ofInvertedMask mask) := by
  obtain ⟨i, hi, hClear⟩ := exists_clear hMask
  have hSome : clearBits mask ≠ [] := List.ne_nil_of_mem (mem_clearBits.mpr ⟨hi, hClear⟩)
  have hLow := mem_clearBits.mp (List.head_mem hSome)
  have hHigh := mem_clearBits.mp (List.getLast_mem hSome)
  have hOrder : (clearBits mask).head hSome ≤ (clearBits mask).getLast hSome :=
    (pairwise_clearBits mask).rel_head (List.getLast_mem hSome)
  rw [ofInvertedMask_eq hSome]
  refine ⟨by dsimp only; omega, by dsimp only; omega, hLow.2, ?_, fun j hj hjClear => ?_⟩
  · have hEnd : (clearBits mask).head hSome +
        ((clearBits mask).getLast hSome + 1 - (clearBits mask).head hSome) - 1 =
          (clearBits mask).getLast hSome := by omega
    dsimp only
    rw [hEnd]
    exact hHigh.2
  · have hMem : j ∈ clearBits mask := mem_clearBits.mpr ⟨hj, hjClear⟩
    have hFrom := (pairwise_clearBits mask).rel_head hMem
    have hTo := (pairwise_clearBits mask).rel_getLast hMem
    exact ⟨hFrom, by dsimp only; omega⟩

/-! ## Zeros at both ends -/

theorem toNat_clz_lt {w : Word} (h : w ≠ 0) : w.clz.toNat < 32 :=
  BitVec.lt_def.mp (BitVec.clz_lt_iff_ne_zero.mpr h)

/-- Above the ones there are only zeros. -/
theorem lt_of_getLsbD {w : Word} {i : Nat} (h : w.getLsbD i = true) :
    i < 32 - w.clz.toNat := by
  refine Nat.lt_of_not_le fun hAbove => ?_
  have hSmall : w.toNat < 2 ^ i :=
    Nat.lt_of_lt_of_le BitVec.toNat_lt_two_pow_sub_clz (Nat.pow_le_pow_right (by decide) hAbove)
  have hClear : w.getLsbD i = false := Nat.testBit_lt_two_pow hSmall
  rw [hClear] at h
  contradiction

/-- Below the ones there are only zeros. -/
theorem ctz_le_of_getLsbD {w : Word} {i : Nat} (h : w.getLsbD i = true) : w.ctz.toNat ≤ i := by
  refine Nat.le_of_not_lt fun hBelow => ?_
  rw [BitVec.getLsbD_false_of_lt_ctz hBelow] at h
  contradiction

theorem complement_ne_zero (hMask : mask ≠ .allOnes 32) : ~~~mask ≠ 0 := by
  intro hZero
  refine hMask ?_
  rw [← BitVec.not_not (b := mask), hZero]
  rfl

theorem clear_of_complement {i : Nat} (h : (~~~mask).getLsbD i = true) :
    mask.getLsbD i = false := by
  rw [BitVec.getLsbD_not] at h
  simpa using (Bool.and_eq_true_iff.mp h).2

theorem isHull_ofZeroCounts (hMask : mask ≠ .allOnes 32) : IsHull mask (ofZeroCounts mask) := by
  have hOnes := complement_ne_zero hMask
  have hTop := toNat_clz_lt hOnes
  have hLowest := BitVec.getLsbD_true_ctz_of_ne_zero hOnes
  have hHighest := BitVec.getLsbD_true_clz_of_ne_zero (by decide) hOnes
  have hOrder := ctz_le_of_getLsbD hHighest
  refine ⟨?_, ?_, clear_of_complement hLowest, ?_, fun i hi hClear => ?_⟩
  · simp only [ofZeroCounts]
    omega
  · simp only [ofZeroCounts]
    omega
  · have hEnd : (ofZeroCounts mask).low + (ofZeroCounts mask).width - 1 =
        32 - 1 - (~~~mask).clz.toNat := by
      simp only [ofZeroCounts]
      omega
    rw [hEnd]
    exact clear_of_complement hHighest
  · have hSet : (~~~mask).getLsbD i = true := by
      rw [BitVec.getLsbD_not, hClear, decide_eq_true hi]
      rfl
    have hFrom := ctz_le_of_getLsbD hSet
    have hTo := lt_of_getLsbD hSet
    refine ⟨hFrom, ?_⟩
    simp only [ofZeroCounts]
    omega

/-- The list of the clear bits and the zeros of the complement give one field. -/
theorem ofInvertedMask_eq_ofZeroCounts (mask : Word) : ofInvertedMask mask = ofZeroCounts mask := by
  by_cases hMask : mask = .allOnes 32
  · subst hMask
    decide +kernel
  · exact (isHull_ofInvertedMask hMask).unique (isHull_ofZeroCounts hMask)

/-! ## Masks of fields -/

theorem getLsbD_invertedMask (f : Bitfield) {i : Nat} (hi : i < 32) :
    f.invertedMask.getLsbD i = false ↔ f.Covers i := by
  unfold invertedMask Covers
  rw [BitVec.getLsbD_not, BitVec.getLsbD_ofNat, Nat.testBit_mul_two_pow,
    Nat.testBit_two_pow_sub_one]
  simp only [hi, decide_true, Bool.true_and, Bool.not_eq_false', Bool.and_eq_true,
    decide_eq_true_eq]
  omega

/-- The mask of a field has the field as its hull. -/
theorem isHull_invertedMask (hPos : 1 ≤ f.width) (hWithin : f.low + f.width ≤ 32) :
    IsHull f.invertedMask f where
  width_pos := hPos
  within := hWithin
  low_clear := (getLsbD_invertedMask f (by omega)).mpr ⟨by omega, by omega⟩
  high_clear := (getLsbD_invertedMask f (by omega)).mpr ⟨by omega, by omega⟩
  covers := fun _ hi hClear => (getLsbD_invertedMask f hi).mp hClear

/-- A hull gives a contiguous mask back. -/
theorem IsHull.invertedMask_eq (hf : IsHull mask f) (hRun : Contiguous mask) :
    f.invertedMask = mask := by
  refine BitVec.eq_of_getLsbD_eq fun i hi => ?_
  have hPos := hf.width_pos
  have hEnd := hf.within
  have hSame : f.invertedMask.getLsbD i = false ↔ mask.getLsbD i = false := by
    rw [getLsbD_invertedMask f hi]
    constructor
    · rintro ⟨hFrom, hTo⟩
      exact hRun f.low i (f.low + f.width - 1) hFrom (by omega) (by omega) hf.low_clear
        hf.high_clear
    · exact hf.covers i hi
  exact Bool.not_inj (Bool.coe_false_iff_false.mp hSame)

/-- A contiguous mask can be recovered from its field; this includes the mask of all ones. -/
theorem invertedMask_ofInvertedMask (hRun : Contiguous mask) :
    (ofInvertedMask mask).invertedMask = mask := by
  by_cases hMask : mask = .allOnes 32
  · subst hMask
    decide +kernel
  · exact (isHull_ofInvertedMask hMask).invertedMask_eq hRun

/-- A field within the word can be recovered from its mask. -/
theorem ofInvertedMask_invertedMask (hPos : 1 ≤ f.width) (hWithin : f.low + f.width ≤ 32) :
    ofInvertedMask f.invertedMask = f := by
  have hHull := isHull_invertedMask hPos hWithin
  have hMask : f.invertedMask ≠ .allOnes 32 := by
    intro hOnes
    have hLow := hHull.low_clear
    rw [hOnes, BitVec.getLsbD_allOnes, decide_eq_true (by omega)] at hLow
    contradiction
  exact (isHull_ofInvertedMask hMask).unique hHull

end Bitfield

open Bitfield

/-- The field of a mask is the tight hull of its clear bits, wherever there are any, and the
mask of all ones gives an empty field above the top bit.  The zeros at both ends of the
complement give the same field.  A mask whose clear bits are contiguous is recovered from its
field, and a field that is not empty from its mask.  The two numbers of the field of the low
word are what a bitfield site reports. -/
theorem ofInvertedMask_hull :
    (∀ mask ≠ .allOnes 32, IsHull mask (ofInvertedMask mask)) ∧
    ofInvertedMask (.allOnes 32) = ⟨32, 0⟩ ∧
    (∀ mask, ofInvertedMask mask = ofZeroCounts mask) ∧
    (∀ mask, Contiguous mask → (ofInvertedMask mask).invertedMask = mask) ∧
    (∀ f : Bitfield, 1 ≤ f.width → f.low + f.width ≤ 32 → ofInvertedMask f.invertedMask = f) ∧
    ∀ (e : Encoded) (i : Nat), Site.Adds e (.operand .bitfield i)
      [.ofImmediate (.ofNat 64 (ofInvertedMask (e.immediate i).word).low) false,
        .ofImmediate (.ofNat 64 (ofInvertedMask (e.immediate i).word).width) false] :=
  ⟨fun _ => isHull_ofInvertedMask, by decide +kernel, ofInvertedMask_eq_ofZeroCounts,
    fun _ => invertedMask_ofInvertedMask, fun _ => ofInvertedMask_invertedMask,
    fun _ _ => Report.adds_of_additive rfl rfl⟩

/-- A clear bit at each end of the word: the field is the whole word, and the mask is lost. -/
example : ofInvertedMask 0x7ffffffe = ⟨0, 32⟩ ∧ invertedMask ⟨0, 32⟩ = 0 := by
  decide +kernel

end OperandReport.Arm
