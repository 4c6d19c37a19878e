import Mathlib.Data.Set.Function
import OperandReport.Proofs.Arm.Magnitude
import OperandReport.Proofs.Arm.Visit

/-!
# Offsets of memory operands

An offset is reported as a magnitude and a sign, whatever it looks like in the
instruction.  A signed word is taken apart into its distance from zero and its direction;
the least word, whose distance is no signed word, stands for a minus zero.  Nothing is
lost: `signMagnitude_bijOn` says that every magnitude below half of the range occurs once
with each sign.  The packed addressing modes have the sign in a bit of its own, next to
the magnitude.

Some forms say whether a zero is written down.  An offset that is not written down leaves
a displacement of zero behind, which is not subtracted, so the operand is the same.

## Main results

* `signMagnitude_bijOn`: words are magnitudes with a sign, one to one.
* `visit_hiddenZero`: it makes no difference whether a zero is written down.
* `visit_offsets`: what each form with an offset adds to a report.
-/

namespace OperandReport.Arm

/-! ## Signs and magnitudes -/

/-- The magnitude of a signed word, and whether it is negative.  The least word stands for
minus zero. -/
def signMagnitude (v : Word) : Nat × Bool :=
  if v.toInt = -0x80000000 then (0, true) else (v.toInt.natAbs, decide (v.toInt < 0))

/-- The number with a magnitude and a sign, where minus zero is the least word. -/
def signedValue (offset : Nat × Bool) : Int :=
  if offset.2 then if offset.1 = 0 then -0x80000000 else -offset.1 else offset.1

theorem signMagnitude_lt (v : Word) : (signMagnitude v).1 < 0x80000000 := by
  have hLow := BitVec.le_toInt v
  have hHigh := BitVec.toInt_lt (x := v)
  unfold signMagnitude
  split
  · decide
  · show v.toInt.natAbs < 0x80000000
    omega

theorem signedValue_signMagnitude (v : Word) : signedValue (signMagnitude v) = v.toInt := by
  unfold signMagnitude
  split
  · next hLeast => exact hLeast.symm
  · cases hNegative : decide (v.toInt < 0) with
    | true =>
        have hBelow := of_decide_eq_true hNegative
        have hSome : v.toInt.natAbs ≠ 0 := by omega
        show (if v.toInt.natAbs = 0 then -0x80000000 else -(v.toInt.natAbs : Int)) = v.toInt
        rw [if_neg hSome]
        omega
    | false =>
        have hAbove := of_decide_eq_false hNegative
        show (v.toInt.natAbs : Int) = v.toInt
        omega

theorem signMagnitude_ofInt {offset : Nat × Bool} (h : offset.1 < 0x80000000) :
    signMagnitude (.ofInt 32 (signedValue offset)) = offset := by
  have hRange : -0x80000000 ≤ signedValue offset ∧ signedValue offset < 0x80000000 := by
    unfold signedValue
    split
    · split <;> omega
    · omega
  have hValue : (BitVec.ofInt 32 (signedValue offset)).toInt = signedValue offset := by
    rw [BitVec.toInt_ofInt]
    exact Int.bmod_eq_of_le hRange.1 hRange.2
  obtain ⟨magnitude, negative⟩ := offset
  rw [signMagnitude, hValue]
  cases negative with
  | false =>
      have hNotLeast : (magnitude : Int) ≠ -0x80000000 := by omega
      have hNotNegative : ¬ (magnitude : Int) < 0 := by omega
      simp [signedValue, hNotLeast, hNotNegative]
  | true =>
      by_cases hZero : magnitude = 0
      · simp [signedValue, hZero]
      · have hNotLeast : -(magnitude : Int) ≠ -0x80000000 := by
          change magnitude < 0x80000000 at h
          omega
        have hNegative : 0 < magnitude := by omega
        simp [signedValue, hZero, hNotLeast, hNegative]

/-- Each magnitude below half of the range occurs once with each sign. -/
theorem signMagnitude_bijOn :
    Set.BijOn signMagnitude Set.univ {offset | offset.1 < 0x80000000} := by
  have hInverse : Set.InvOn (fun offset => BitVec.ofInt 32 (signedValue offset)) signMagnitude
      Set.univ {offset | offset.1 < 0x80000000} := by
    refine ⟨fun v _ => ?_, fun offset h => signMagnitude_ofInt h⟩
    dsimp only
    rw [signedValue_signMagnitude, BitVec.ofInt_toInt]
  exact hInverse.bijOn (fun v _ => signMagnitude_lt v) (fun _ _ => Set.mem_univ _)

/-- The least word is no distance below zero. -/
example : signMagnitude 0x80000000 = (0, true) ∧ signMagnitude 0x80000001 = (0x7fffffff, true) := by
  decide

/-- A distance and a direction are a magnitude and a sign. -/
theorem splitOffset_eq (v : Word) :
    splitOffset v = (BitVec.ofNat 32 (signMagnitude v).1, (signMagnitude v).2) := by
  have hSign := BitVec.toInt_eq_msb_cond v
  have hLeast : v = BitVec.intMin 32 ↔ v.toInt = -0x80000000 :=
    ⟨fun h => by rw [h]; rfl, fun h => BitVec.eq_of_toInt_eq h⟩
  unfold splitOffset signMagnitude
  by_cases hMin : v = BitVec.intMin 32
  · rw [if_pos hMin, if_pos (hLeast.mp hMin)]
    rfl
  · rw [if_neg hMin, if_neg (mt hLeast.mpr hMin)]
    have hBound := v.isLt
    split
    · next hNegative =>
      rw [if_pos hNegative] at hSign
      have hBelow : v.toInt < 0 := by omega
      have hDistance : -v = BitVec.ofNat 32 v.toInt.natAbs := by
        refine BitVec.eq_of_toNat_eq ?_
        rw [BitVec.toNat_neg, BitVec.toNat_ofNat]
        omega
      rw [hDistance, decide_eq_true hBelow]
    · next hPositive =>
      rw [if_neg hPositive] at hSign
      have hAbove : ¬ v.toInt < 0 := by omega
      have hDistance : v = BitVec.ofNat 32 v.toInt.natAbs := by
        refine BitVec.eq_of_toNat_eq ?_
        rw [BitVec.toNat_ofNat]
        omega
      rw [decide_eq_false hAbove, ← hDistance]

/-- As a number, the distance is the magnitude. -/
theorem toNat_splitOffset (v : Word) : (splitOffset v).1.toNat = (signMagnitude v).1 := by
  have hBound := signMagnitude_lt v
  rw [splitOffset_eq, BitVec.toNat_ofNat]
  omega

/-! ## Signs of packed words -/

theorem Direction.isSubtract_ofBit (n : Nat) : (ofBit n).isSubtract = decide (n = 1) := by
  unfold ofBit
  split
  · next hOne => exact (decide_eq_true hOne).symm
  · next hOther => exact (decide_eq_false hOther).symm

/-- A bit of a word says to subtract where it is set. -/
theorem Direction.isSubtract_bit (w : Word) (n : Nat) :
    (ofBit (w.toNat / Nat.pow 2 n % 2)).isSubtract = w.getLsbD n := by
  rw [BitVec.getLsbD, Nat.testBit_eq_decide_div_mod_eq]
  exact isSubtract_ofBit _

theorem Indexing.ofCode_ne_post {n : Nat} (h : n ≠ 2) : ofCode n ≠ .post := by
  unfold ofCode
  split
  · nofun
  · contradiction
  · nofun

/-! ## Operands with an offset -/

variable {e : Encoded} {i : Nat}

/-- The memory operand at a base register with a magnitude and a sign. -/
def offsetFrom (e : Encoded) (i : Nat) (base : Register) (offset : Nat × Bool) : Operand :=
  { memoryOperand e i { base, displacement := .ofNat 32 offset.1 } with subtracted := offset.2 }

/-- The memory operand at a base register with an index register that is added or
subtracted. -/
def indexFrom (e : Encoded) (i : Nat) (base index : Register) (subtracted : Bool) : Operand :=
  { memoryOperand e i { base, index } with subtracted }

/-- A magnitude and a sign on their own. -/
def offsetAlone (offset : Nat × Bool) : Operand := .ofImmediate (.ofNat 64 offset.1) offset.2

theorem completedBy_signedOffsetEdits (hBase : e.isRegister i = true) (showZero : Bool) :
    Edit.completedBy (signedOffsetEdits e i showZero) =
      [offsetFrom e i (registerAt e i) (signMagnitude (e.immediate (i + 1)).word)] := by
  rw [signedOffsetEdits_eq, onBase_of_isRegister hBase, splitOffset_eq]
  rfl

theorem completedBy_mode5Edits (hBase : e.isRegister i = true) (unit : Nat) (showZero : Bool) :
    Edit.completedBy (mode5Edits e i unit showZero) =
      [offsetFrom e i (registerAt e i) ((e.immediate (i + 1)).word.toNat % 256 * unit,
        (e.immediate (i + 1)).word.getLsbD 8)] := by
  rw [mode5Edits_eq, onBase_of_isRegister hBase, ← Direction.isSubtract_bit]
  rfl

theorem completedBy_mode3Edits (hBase : e.isRegister i = true) (showZero : Bool)
    (hNotPost : (e.immediate (i + 2)).word.toNat / 512 % 4 ≠ 2) :
    Edit.completedBy (mode3Edits e i showZero) =
      [if e.registerId (i + 1) = 0 then
        offsetFrom e i (registerAt e i) ((e.immediate (i + 2)).word.toNat % 256,
          (e.immediate (i + 2)).word.getLsbD 8)
      else
        indexFrom e i (registerAt e i) (registerAt e (i + 1))
          ((e.immediate (i + 2)).word.getLsbD 8)] := by
  have hIndexing : (Mode3.ofWord (e.immediate (i + 2)).word).indexing ≠ .post :=
    Indexing.ofCode_ne_post hNotPost
  rw [mode3Edits_eq, onBase_of_isRegister hBase, ← Direction.isSubtract_bit]
  dsimp only
  rw [if_neg hIndexing]
  split
  · rfl
  · rfl

theorem completedBy_mode2Edits (hBase : e.isRegister i = true)
    (hNoIndex : e.registerId (i + 1) = 0) :
    Edit.completedBy (mode2Edits e i) =
      [offsetFrom e i (registerAt e i) ((e.immediate (i + 2)).word.toNat % 4096,
        (e.immediate (i + 2)).word.getLsbD 12 &&
          (e.immediate (i + 2)).word.toNat % 4096 != 0)] := by
  rw [mode2Edits_eq, onBase_of_isRegister hBase, ← Direction.isSubtract_bit]
  dsimp only
  rw [if_pos hNoIndex]
  rfl

/-! ## Zeros that are not written down -/

/-- The forms that say whether a zero is written down. -/
def zeroForms : List (Bool → OperandForm) :=
  [.mode3, .mode5, .mode5Half, .signedOffset, .shortOffset, .shortWordOffset]

/-- Whether a zero is written down makes no difference to what a form contributes. -/
theorem edits_hiddenZero {form : Bool → OperandForm} (hForm : form ∈ zeroForms) (e : Encoded)
    (i : Nat) : (form true).edits e i = (form false).edits e i := by
  simp only [zeroForms, List.mem_cons, List.not_mem_nil, or_false] at hForm
  rcases hForm with rfl | rfl | rfl | rfl | rfl | rfl
  · exact (mode3Edits_eq e i true).trans (mode3Edits_eq e i false).symm
  · exact (mode5Edits_eq e i 4 true).trans (mode5Edits_eq e i 4 false).symm
  · exact (mode5Edits_eq e i 2 true).trans (mode5Edits_eq e i 2 false).symm
  all_goals exact (signedOffsetEdits_eq e i true).trans (signedOffsetEdits_eq e i false).symm

/-- So it makes none to any report, not even to one that is full or has an operand open. -/
theorem visit_hiddenZero {form : Bool → OperandForm} (hForm : form ∈ zeroForms) (e : Encoded)
    (i : Nat) (report : Report) :
    report.visit e (.operand (form true) i) = report.visit e (.operand (form false) i) := by
  show (report.operands.applyAll _).map _ = (report.operands.applyAll _).map _
  rw [edits_hiddenZero hForm e i]

/-! ## What is added -/

/-- Every form with an offset adds one operand that has the sign and the magnitude of the
offset, where field `i` holds the base register and field `k` an offset of its own. -/
structure ExactOffsets (e : Encoded) (i k : Nat) : Prop where
  /-- a signed offset from the base register -/
  signed : ∀ showZero, ∀ form ∈ [OperandForm.signedOffset showZero, .shortOffset showZero,
      .shortWordOffset showZero],
    Site.Adds e (.operand form i)
      [offsetFrom e i (registerAt e i) (signMagnitude (e.immediate (i + 1)).word)]
  /-- a signed offset from the program counter -/
  literal : Site.Adds e (.operand .literal k)
    [offsetFrom e k .pc (signMagnitude (e.immediate k).word)]
  /-- a signed offset that is reported as an immediate -/
  alone : ∀ form ∈ [OperandForm.shortPostOffset, .shortPostWordOffset],
    Site.Adds e (.operand form k) [offsetAlone (signMagnitude (e.immediate k).word)]
  /-- signed offsets are magnitudes with a sign, one to one -/
  lossless : Set.BijOn signMagnitude Set.univ {offset | offset.1 < 0x80000000}
  mode5 : ∀ showZero, Site.Adds e (.operand (.mode5 showZero) i)
    [offsetFrom e i (registerAt e i) ((e.immediate (i + 1)).word.toNat % 256 * 4,
      (e.immediate (i + 1)).word.getLsbD 8)]
  mode5Half : ∀ showZero, Site.Adds e (.operand (.mode5Half showZero) i)
    [offsetFrom e i (registerAt e i) ((e.immediate (i + 1)).word.toNat % 256 * 2,
      (e.immediate (i + 1)).word.getLsbD 8)]
  /-- an index register takes the place of the magnitude -/
  mode3 : ∀ showZero, (e.immediate (i + 2)).word.toNat / 512 % 4 ≠ 2 →
    Site.Adds e (.operand (.mode3 showZero) i)
      [if e.registerId (i + 1) = 0 then
        offsetFrom e i (registerAt e i) ((e.immediate (i + 2)).word.toNat % 256,
          (e.immediate (i + 2)).word.getLsbD 8)
      else
        indexFrom e i (registerAt e i) (registerAt e (i + 1))
          ((e.immediate (i + 2)).word.getLsbD 8)]
  /-- a zero is never subtracted -/
  mode2 : e.registerId (i + 1) = 0 → Site.Adds e (.operand .mode2 i)
    [offsetFrom e i (registerAt e i) ((e.immediate (i + 2)).word.toNat % 4096,
      (e.immediate (i + 2)).word.getLsbD 12 && (e.immediate (i + 2)).word.toNat % 4096 != 0)]
  /-- whether a zero is written down makes no difference -/
  hiddenZero : ∀ form ∈ zeroForms, ∀ (j : Nat) (report : Report),
    report.visit e (.operand (form true) j) = report.visit e (.operand (form false) j)

/-- On a base register, every form with an offset reports its sign and its magnitude. -/
theorem visit_offsets (hBase : e.isRegister i = true) (k : Nat) : ExactOffsets e i k where
  signed showZero form hForm := by
    simp only [List.mem_cons, List.not_mem_nil, or_false] at hForm
    rcases hForm with rfl | rfl | rfl
    all_goals exact Report.adds_of_additive rfl (completedBy_signedOffsetEdits hBase showZero)
  literal := by
    refine Report.adds_of_additive rfl ?_
    unfold OperandForm.edits
    dsimp only
    rw [splitOffset_eq]
    rfl
  alone form hForm := by
    have hAlone : Edit.completedBy
        [reportOffset (splitOffset (e.immediate k).word).1.toNat
          (splitOffset (e.immediate k).word).2] =
        [offsetAlone (signMagnitude (e.immediate k).word)] := by
      rw [toNat_splitOffset, splitOffset_eq]
      rfl
    simp only [List.mem_cons, List.not_mem_nil, or_false] at hForm
    rcases hForm with rfl | rfl
    all_goals exact Report.adds_of_additive rfl hAlone
  lossless := signMagnitude_bijOn
  mode5 showZero := Report.adds_of_additive rfl (completedBy_mode5Edits hBase 4 showZero)
  mode5Half showZero := Report.adds_of_additive rfl (completedBy_mode5Edits hBase 2 showZero)
  mode3 showZero hNotPost :=
    Report.adds_of_additive rfl (completedBy_mode3Edits hBase showZero hNotPost)
  mode2 hNoIndex := Report.adds_of_additive rfl (completedBy_mode2Edits hBase hNoIndex)
  hiddenZero form hForm j report := visit_hiddenZero hForm e j report

/-- A load of a word from four bytes below a base register. -/
def loadWordBelow : Encoded where
  opcode := (templates.find? (·.name == "t2LDRi8")).get (by decide +kernel)
  fields := [.register 32, .register 33, .immediate (-4), .immediate 14, .register 0]

/-- The offset is reported as four bytes that are subtracted. -/
theorem visit_offsets_loadWordBelow :
    loadWordBelow.isRegister 1 = true ∧ ExactOffsets loadWordBelow 1 2 ∧
      Site.Adds loadWordBelow (.operand (.shortOffset false) 1)
        [{ value := .memory { base := ⟨33⟩, displacement := 4 }, access := .reads,
           subtracted := true }] := by
  have hBase : loadWordBelow.isRegister 1 = true := rfl
  have hOffsets : ExactOffsets loadWordBelow 1 2 := visit_offsets hBase 2
  have hOperand : offsetFrom loadWordBelow 1 (registerAt loadWordBelow 1)
      (signMagnitude (loadWordBelow.immediate 2).word) =
        { value := .memory { base := ⟨33⟩, displacement := 4 }, access := .reads,
          subtracted := true } := by
    decide +kernel
  refine ⟨hBase, hOffsets, ?_⟩
  rw [← hOperand]
  exact hOffsets.signed false _ (List.mem_cons_of_mem _ List.mem_cons_self)

end OperandReport.Arm
