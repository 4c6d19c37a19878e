import OperandReport.Arm.Immediate.Rotated

/-!
# Rotated immediates are canonical

An encoding gives a value when the bits of the value lie in a window of eight, which
starts at an even place and may wrap around the top of the word.  `FitsAt value s` says so
of the window at `s`, bit by bit; the even place at `s` and the rotation of the encoding
add up to a whole turn.

Only two places are tried, and they are enough.  If no bit lies below the start of some
window, the lowest bit is the better start, since a later start means a smaller rotation.
If the window wraps around, its low part lies in the low six bits, and without these the
lowest bit is the better start again.  So the place that is found is never below the start
of any window: `fitsAt_byteStart` gives completeness and the least rotation at once.

## Main results

* `isByte_rotateRight_iff`: rotating leaves a byte just when the bits fit the window.
* `fitsAt_byteStart`: the place that is found is the best one.
* `encode?_canonical`: the encoding is the least one, and there is none just when no
  encoding gives the value.
-/

namespace OperandReport.Arm.RotatedImmediate

/-! ## Windows -/

/-- Every bit of the value lies in the window of eight bits that starts at `s`. -/
def FitsAt (value : Word) (s : Nat) : Prop :=
  ∀ i < 32, value.getLsbD i = true → (i + 32 - s) % 32 < 8

/-- A byte has no bit above the low eight. -/
theorem isByte_iff {value : Word} :
    isByte value = true ↔ ∀ i < 32, value.getLsbD i = true → i < 8 := by
  simp only [isByte, decide_eq_true_eq]
  constructor
  · intro hByte i _ hBit
    by_cases hLow : i < 8
    · exact hLow
    · have hPow : 2 ^ 8 ≤ 2 ^ i := Nat.pow_le_pow_right (by decide) (by omega)
      have hClear : value.toNat.testBit i = false := Nat.testBit_lt_two_pow (by omega)
      rw [BitVec.getLsbD, hClear] at hBit
      contradiction
  · intro hBits
    refine Nat.lt_pow_two_of_testBit (n := 8) value.toNat fun i hHigh => ?_
    cases hBit : value.toNat.testBit i with
    | false => rfl
    | true =>
        have hIn : i < 32 := BitVec.lt_of_getLsbD (x := value) hBit
        have hLow := hBits i hIn hBit
        omega

/-- A bit of a word that is rotated right comes from a place further up. -/
theorem getLsbD_rotateRight_of_lt {value : Word} {s i : Nat} (hs : s < 32) (hi : i < 32) :
    (value.rotateRight s).getLsbD i = value.getLsbD ((i + s) % 32) := by
  rw [BitVec.getLsbD_rotateRight, Nat.mod_eq_of_lt hs]
  by_cases hBelow : i < 32 - s
  · have hPlace : (i + s) % 32 = s + i := by omega
    simp [hBelow, hPlace]
  · have hPlace : (i + s) % 32 = i - (32 - s) := by omega
    simp [hBelow, hi, hPlace]

/-- Rotating right leaves a byte just when the bits fit the window. -/
theorem isByte_rotateRight_iff {value : Word} {s : Nat} (hs : s < 32) :
    isByte (value.rotateRight s) = true ↔ FitsAt value s := by
  rw [isByte_iff]
  constructor
  · intro hBits i hi hBit
    have hPlace : (i + 32 - s) % 32 < 32 := Nat.mod_lt _ (by decide)
    have hBack : ((i + 32 - s) % 32 + s) % 32 = i := by omega
    refine hBits _ hPlace ?_
    rw [getLsbD_rotateRight_of_lt hs hPlace, hBack]
    exact hBit
  · intro hFits i hi hBit
    rw [getLsbD_rotateRight_of_lt hs hi] at hBit
    have hWindow := hFits _ (Nat.mod_lt _ (by decide)) hBit
    omega

/-- Rotating left by the rest of a turn is rotating right. -/
theorem rotateLeft_eq_rotateRight (value : Word) {s : Nat} (hs : s < 32) :
    value.rotateLeft ((32 - s) % 32) = value.rotateRight s := by
  refine BitVec.eq_of_getLsbD_eq fun i hi => ?_
  rw [getLsbD_rotateRight_of_lt hs hi, BitVec.getLsbD_rotateLeft, Nat.mod_mod]
  by_cases hWrapped : i < (32 - s) % 32
  · have hPlace : (i + s) % 32 = 32 - (32 - s) % 32 + i := by omega
    simp [hWrapped, hPlace]
  · have hPlace : (i + s) % 32 = i - (32 - s) % 32 := by omega
    simp [hWrapped, hi, hPlace]

/-! ## The lowest bit -/

/-- The even place of the lowest bit has no bit below it, and it is within the word. -/
theorem evenPlace_spec {value : Word} (hSome : value ≠ 0) :
    evenPlace value % 2 = 0 ∧ evenPlace value ≤ 30 ∧
      (∀ i, value.getLsbD i = true → evenPlace value ≤ i) ∧
      ∃ i, value.getLsbD i = true ∧ i ≤ evenPlace value + 1 := by
  have hLowest := BitVec.getLsbD_true_ctz_of_ne_zero hSome
  have hIn : value.ctz.toNat < 32 := BitVec.lt_of_getLsbD hLowest
  unfold evenPlace
  refine ⟨by omega, by omega, ?_, value.ctz.toNat, hLowest, by omega⟩
  intro i hBit
  by_cases hBelow : i < value.ctz.toNat
  · rw [BitVec.getLsbD_false_of_lt_ctz hBelow] at hBit
    contradiction
  · omega

/-- Without bits below an even place, the lowest bit starts no earlier. -/
theorem le_evenPlace {value : Word} {s : Nat} (hSome : value ≠ 0) (hEven : s % 2 = 0)
    (hAbove : ∀ i, value.getLsbD i = true → s ≤ i) : s ≤ evenPlace value := by
  obtain ⟨hPlaceEven, _, _, i, hBit, hNear⟩ := evenPlace_spec hSome
  have hStart := hAbove i hBit
  omega

/-! ## The two attempts -/

/-- A value that is no byte has a bit above the low eight. -/
theorem exists_high_bit {value : Word} (hWide : isByte value = false) :
    ∃ i, 8 ≤ i ∧ i < 32 ∧ value.getLsbD i = true := by
  refine Classical.byContradiction fun hNone => ?_
  have hByte : isByte value = true := by
    refine isByte_iff.mpr fun i hi hBit => Nat.lt_of_not_le fun hHigh => ?_
    exact hNone ⟨i, hHigh, hi, hBit⟩
  rw [hByte] at hWide
  contradiction

theorem ne_zero_of_bit {value : Word} {i : Nat} (hBit : value.getLsbD i = true) : value ≠ 0 := by
  rintro rfl
  simp at hBit

/-- The low six bits of a word. -/
private theorem getLsbD_lowSix (i : Nat) : (63 : Word).getLsbD i = decide (i < 6) := by
  show (BitVec.ofNat 32 (2 ^ 6 - 1)).getLsbD i = _
  rw [BitVec.getLsbD_ofNat, Nat.testBit_two_pow_sub_one]
  by_cases hLow : i < 6
  · have hIn : i < 32 := by omega
    simp [hLow, hIn]
  · simp [hLow]

theorem getLsbD_clearLowSix {value : Word} {i : Nat} :
    (value &&& ~~~63).getLsbD i = true ↔ value.getLsbD i = true ∧ 6 ≤ i := by
  rw [BitVec.getLsbD_and, BitVec.getLsbD_not, getLsbD_lowSix]
  by_cases hIn : i < 32
  · simp [hIn]
  · have hClear : value.getLsbD i = false := BitVec.getLsbD_of_ge value i (by omega)
    simp [hClear]

theorem lowSix_ne_zero {value : Word} {i : Nat} (hBit : value.getLsbD i = true) (hLow : i < 6) :
    value &&& 63 ≠ 0 := by
  refine ne_zero_of_bit (i := i) ?_
  rw [BitVec.getLsbD_and, hBit, getLsbD_lowSix]
  simpa using hLow

/-- Above the low six bits there is one, if the value is no byte. -/
theorem clearLowSix_ne_zero {value : Word} (hWide : isByte value = false) :
    value &&& ~~~63 ≠ 0 := by
  obtain ⟨i, hHigh, _, hBit⟩ := exists_high_bit hWide
  exact ne_zero_of_bit (getLsbD_clearLowSix.mpr ⟨hBit, by omega⟩)

theorem ne_zero_of_wide {value : Word} (hWide : isByte value = false) : value ≠ 0 := by
  obtain ⟨i, _, _, hBit⟩ := exists_high_bit hWide
  exact ne_zero_of_bit hBit

/-- The place that is found is one of two even ones. -/
theorem byteStart_cases {value : Word} (hWide : isByte value = false) :
    byteStart value = evenPlace value ∨ byteStart value = evenPlace (value &&& ~~~63) := by
  unfold byteStart
  rw [hWide]
  dsimp only
  split
  · contradiction
  · split
    · exact .inl rfl
    · split
      · split
        · exact .inr rfl
        · exact .inl rfl
      · exact .inl rfl

theorem byteStart_even {value : Word} (hWide : isByte value = false) :
    byteStart value % 2 = 0 ∧ byteStart value ≤ 30 := by
  have hLow := evenPlace_spec (ne_zero_of_wide hWide)
  have hHigh := evenPlace_spec (clearLowSix_ne_zero hWide)
  rcases byteStart_cases hWide with hStart | hStart
  · rw [hStart]
    exact ⟨hLow.1, hLow.2.1⟩
  · rw [hStart]
    exact ⟨hHigh.1, hHigh.2.1⟩

/-- The first attempt succeeds if the bits fit the window at the lowest one. -/
theorem byteStart_of_low {value : Word} (hWide : isByte value = false)
    (hFits : FitsAt value (evenPlace value)) : byteStart value = evenPlace value := by
  have hPlace := (evenPlace_spec (ne_zero_of_wide hWide)).2.1
  have hByte := (isByte_rotateRight_iff (by omega)).mpr hFits
  simp [byteStart, hWide, hByte]

/-- The second attempt is made if they do not and some of the low six bits are set. -/
theorem byteStart_of_high {value : Word} (hWide : isByte value = false)
    (hMisses : ¬ FitsAt value (evenPlace value)) (hLow : value &&& 63 ≠ 0)
    (hFits : FitsAt value (evenPlace (value &&& ~~~63))) :
    byteStart value = evenPlace (value &&& ~~~63) := by
  have hFirst := (evenPlace_spec (ne_zero_of_wide hWide)).2.1
  have hSecond := (evenPlace_spec (clearLowSix_ne_zero hWide)).2.1
  have hMiss : isByte (value.rotateRight (evenPlace value)) = false := by
    rw [← Bool.not_eq_true, isByte_rotateRight_iff (by omega)]
    exact hMisses
  have hByte := (isByte_rotateRight_iff (by omega)).mpr hFits
  unfold byteStart
  rw [if_neg (Bool.not_eq_true _ ▸ hWide)]
  dsimp only
  rw [if_neg (Bool.not_eq_true _ ▸ hMiss), if_pos hLow, if_pos hByte]

/-- If the bits fit some window that does not wrap around, they fit the one at the lowest
bit, which starts no earlier. -/
private theorem fitsAt_low {value : Word} {s : Nat} (hWide : isByte value = false)
    (hEven : s % 2 = 0) (hFits : FitsAt value s)
    (hAbove : ∀ i, value.getLsbD i = true → s ≤ i) :
    FitsAt value (evenPlace value) ∧ s ≤ evenPlace value := by
  have hSome := ne_zero_of_wide hWide
  have hStart := le_evenPlace hSome hEven hAbove
  obtain ⟨_, _, hLowest, _⟩ := evenPlace_spec hSome
  refine ⟨fun i hi hBit => ?_, hStart⟩
  have hWindow := hFits i hi hBit
  have hFromStart := hAbove i hBit
  have hFromLowest := hLowest i hBit
  omega

/-- If the window wraps around, a bit `p` below its start is one of the low six, the first
attempt fails, and the second one finds a window that starts no earlier. -/
private theorem fitsAt_high {value : Word} {s p : Nat} (hWide : isByte value = false)
    (hEven : s % 2 = 0) (hs : s < 32) (hFits : FitsAt value s) (hBit : value.getLsbD p = true)
    (hBelow : p < s) :
    ¬ FitsAt value (evenPlace value) ∧ value &&& 63 ≠ 0 ∧
      FitsAt value (evenPlace (value &&& ~~~63)) ∧ s ≤ evenPlace (value &&& ~~~63) := by
  have hWrapped := hFits p (by omega) hBit
  obtain ⟨_, _, hLowest, _⟩ := evenPlace_spec (ne_zero_of_wide hWide)
  have hLow := hLowest p hBit
  have hClear := clearLowSix_ne_zero hWide
  obtain ⟨_, hTop, hNext, _⟩ := evenPlace_spec hClear
  have hStart : s ≤ evenPlace (value &&& ~~~63) := by
    refine le_evenPlace hClear hEven fun i hi => ?_
    obtain ⟨hi, hHigh⟩ := getLsbD_clearLowSix.mp hi
    have hWindow := hFits i (BitVec.lt_of_getLsbD hi) hi
    omega
  refine ⟨fun hFirst => ?_, lowSix_ne_zero hBit (by omega), fun i hi hOther => ?_, hStart⟩
  · obtain ⟨j, hHigh, hIn, hOther⟩ := exists_high_bit hWide
    have hWindow := hFits j hIn hOther
    have hAttempt := hFirst j hIn hOther
    omega
  · have hWindow := hFits i hi hOther
    by_cases hUpper : 6 ≤ i
    · have hFrom := hNext i (getLsbD_clearLowSix.mpr ⟨hOther, hUpper⟩)
      omega
    · omega

/-- The place that is found starts a window that fits, no earlier than any other one that
does. -/
theorem fitsAt_byteStart {value : Word} {s : Nat} (hWide : isByte value = false)
    (hEven : s % 2 = 0) (hs : s < 32) (hFits : FitsAt value s) :
    FitsAt value (byteStart value) ∧ s ≤ byteStart value := by
  by_cases hWraps : ∃ p, value.getLsbD p = true ∧ p < s
  · obtain ⟨p, hBit, hBelow⟩ := hWraps
    obtain ⟨hMisses, hLow, hHigh, hStart⟩ := fitsAt_high hWide hEven hs hFits hBit hBelow
    rw [byteStart_of_high hWide hMisses hLow hHigh]
    exact ⟨hHigh, hStart⟩
  · have hAbove : ∀ i, value.getLsbD i = true → s ≤ i := fun i hBit =>
      Nat.not_lt.mp fun hBelow => hWraps ⟨i, hBit, hBelow⟩
    obtain ⟨hLow, hStart⟩ := fitsAt_low hWide hEven hFits hAbove
    rw [byteStart_of_low hWide hLow]
    exact ⟨hLow, hStart⟩

/-! ## Encodings -/

/-- Rotating on to a whole turn gives the word back. -/
theorem rotateRight_rotateRight (value : Word) {s : Nat} (hs : s < 32) :
    (value.rotateRight s).rotateRight ((32 - s) % 32) = value := by
  refine BitVec.eq_of_getLsbD_eq fun i hi => ?_
  have hRest : (32 - s) % 32 < 32 := Nat.mod_lt _ (by decide)
  have hPlace : (i + (32 - s) % 32) % 32 < 32 := Nat.mod_lt _ (by decide)
  have hBack : ((i + (32 - s) % 32) % 32 + s) % 32 = i := by omega
  rw [getLsbD_rotateRight_of_lt hRest hi, getLsbD_rotateRight_of_lt hs hPlace, hBack]

/-- The place where the window of an encoding starts. -/
def windowOf (encoded : Nat) : Nat := (32 - 2 * (encoded / 256)) % 32

/-- An encoding gives a value just when its byte is what lies in its window. -/
theorem expand_eq_iff {encoded : Nat} (hEncoded : encoded < 4096) {value : Word} :
    expand (.ofNat 32 encoded) = value ↔
      value.rotateRight (windowOf encoded) = .ofNat 32 (encoded % 256) := by
  have hTurn : 2 * (encoded / 256) < 32 := by omega
  have hWindow : windowOf encoded < 32 := Nat.mod_lt _ (by decide)
  have hRest : (32 - windowOf encoded) % 32 = 2 * (encoded / 256) := by
    simp only [windowOf]
    omega
  have hExpand : expand (.ofNat 32 encoded) =
      (BitVec.ofNat 32 (encoded % 256)).rotateRight (2 * (encoded / 256)) := by
    have hWord : (BitVec.ofNat 32 encoded).toNat = encoded := by
      rw [BitVec.toNat_ofNat]
      omega
    have hDistance : encoded / 256 % 16 = encoded / 256 := by omega
    rw [expand, rotation, hWord, hDistance]
  rw [hExpand]
  constructor
  · rintro rfl
    exact rotateRight_rotateRight _ hTurn
  · intro hByte
    rw [← hByte, ← hRest]
    exact rotateRight_rotateRight _ hWindow

/-- A number below 256 is a byte. -/
private theorem isByte_ofNat (n : Nat) : isByte (.ofNat 32 (n % 256)) = true := by
  simp only [isByte, BitVec.toNat_ofNat, decide_eq_true_eq]
  omega

/-- The bits of a value fit the window of each of its encodings. -/
theorem fitsAt_windowOf {encoded : Nat} (hEncoded : encoded < 4096) {value : Word}
    (hExpand : expand (.ofNat 32 encoded) = value) : FitsAt value (windowOf encoded) := by
  have hWindow : windowOf encoded < 32 := Nat.mod_lt _ (by decide)
  rw [← isByte_rotateRight_iff hWindow, (expand_eq_iff hEncoded).mp hExpand]
  exact isByte_ofNat encoded

/-- A value whose bits fit the window at zero is a byte. -/
theorem isByte_of_fitsAt_zero {value : Word} (hFits : FitsAt value 0) : isByte value = true := by
  refine isByte_iff.mpr fun i hi hBit => ?_
  have hWindow := hFits i hi hBit
  omega

/-- The encoding of a value whose byte starts at `s`. -/
def encodingAt (value : Word) (s : Nat) : Nat :=
  256 * ((32 - s) % 32 / 2) + (value.rotateRight s).toNat

/-- It is one, if the start is even and what lies there is a byte. -/
theorem expand_encodingAt {value : Word} {s : Nat} (hEven : s % 2 = 0) (hs : s < 32)
    (hByte : isByte (value.rotateRight s) = true) :
    encodingAt value s < 4096 ∧ expand (.ofNat 32 (encodingAt value s)) = value := by
  have hBound : (value.rotateRight s).toNat < 256 := by simpa [isByte] using hByte
  have hEncoded : encodingAt value s < 4096 := by
    simp only [encodingAt]
    omega
  have hStart : windowOf (encodingAt value s) = s := by
    simp only [windowOf, encodingAt]
    omega
  have hLow : encodingAt value s % 256 = (value.rotateRight s).toNat := by
    simp only [encodingAt]
    omega
  refine ⟨hEncoded, (expand_eq_iff hEncoded).mpr ?_⟩
  rw [hStart, hLow, BitVec.ofNat_toNat, BitVec.setWidth_eq]

/-- Every encoding of a value is the one at the start of its window. -/
theorem eq_encodingAt {value : Word} {encoded : Nat} (hEncoded : encoded < 4096)
    (hExpand : expand (.ofNat 32 encoded) = value) :
    encoded = encodingAt value (windowOf encoded) := by
  have hByte := (expand_eq_iff hEncoded).mp hExpand
  rw [encodingAt, hByte, BitVec.toNat_ofNat]
  simp only [windowOf]
  omega

/-- A later start gives a smaller encoding. -/
theorem encodingAt_le {value : Word} {s t : Nat} (hs : s % 2 = 0) (ht : t % 2 = 0)
    (hPositive : s ≠ 0) (hLater : s ≤ t) (hIn : t < 32)
    (hByte : isByte (value.rotateRight t) = true) : encodingAt value t ≤ encodingAt value s := by
  have hBound : (value.rotateRight t).toNat < 256 := by simpa [isByte] using hByte
  by_cases hSame : s = t
  · exact hSame ▸ Nat.le_refl _
  · simp only [encodingAt]
    omega

theorem byteStart_of_isByte {value : Word} (hByte : isByte value = true) : byteStart value = 0 :=
  if_pos hByte

theorem rotateRight_none (value : Word) : value.rotateRight 0 = value := by
  refine BitVec.eq_of_getLsbD_eq fun i hi => ?_
  rw [getLsbD_rotateRight_of_lt (by decide) hi, Nat.add_zero, Nat.mod_eq_of_lt hi]

/-- A value is encoded at the place that is found, if what lies there is a byte. -/
theorem encode?_eq (value : Word) :
    encode? value =
      if isByte (value.rotateRight (byteStart value)) then
        some (encodingAt value (byteStart value))
      else none := by
  cases hByte : isByte value with
  | true =>
      have hWhole : encodingAt value 0 = value.toNat := by
        rw [encodingAt, rotateRight_none]
        omega
      rw [encode?, if_pos hByte, byteStart_of_isByte hByte, rotateRight_none, if_pos hByte, hWhole]
  | false =>
      have hStart := (byteStart_even hByte).2
      have hRotate : value.rotateLeft (rotationFor value) =
          value.rotateRight (byteStart value) := rotateLeft_eq_rotateRight value (by omega)
      rw [encode?, if_neg (Bool.not_eq_true _ ▸ hByte), hRotate]
      rfl

theorem byteStart_lt (value : Word) : byteStart value % 2 = 0 ∧ byteStart value < 32 := by
  cases hByte : isByte value with
  | true => simp [byteStart_of_isByte hByte]
  | false =>
      obtain ⟨hEven, hTop⟩ := byteStart_even hByte
      exact ⟨hEven, by omega⟩

/-- What is found is an encoding of the value. -/
theorem expand_of_encode? {value : Word} {encoded : Nat} (h : encode? value = some encoded) :
    encoded < 4096 ∧ expand (.ofNat 32 encoded) = value := by
  obtain ⟨hEven, hStart⟩ := byteStart_lt value
  rw [encode?_eq] at h
  split at h
  · next hFound =>
    cases h
    exact expand_encodingAt hEven hStart hFound
  · contradiction

/-- No encoding of a byte is below the byte itself. -/
theorem toNat_le_of_isByte {value : Word} {encoded : Nat} (hByte : isByte value = true)
    (hEncoded : encoded < 4096) (hExpand : expand (.ofNat 32 encoded) = value) :
    value.toNat ≤ encoded := by
  have hBound : value.toNat < 256 := by simpa [isByte] using hByte
  by_cases hFirst : encoded < 256
  · have hZero : windowOf encoded = 0 := by
      simp only [windowOf]
      omega
    have hSelf := eq_encodingAt hEncoded hExpand
    rw [hZero, encodingAt, rotateRight_none] at hSelf
    omega
  · omega

/-- No encoding of another value is below the one that is found. -/
theorem encode?_le_of_wide {value : Word} {encoded : Nat} (hWide : isByte value = false)
    (hEncoded : encoded < 4096) (hExpand : expand (.ofNat 32 encoded) = value) :
    encode? value = some (encodingAt value (byteStart value)) ∧
      encodingAt value (byteStart value) ≤ encoded := by
  have hFits := fitsAt_windowOf hEncoded hExpand
  have hEven : windowOf encoded % 2 = 0 := by
    simp only [windowOf]
    omega
  have hWindow : windowOf encoded < 32 := Nat.mod_lt _ (by decide)
  have hPositive : windowOf encoded ≠ 0 := by
    intro hZero
    rw [hZero] at hFits
    rw [isByte_of_fitsAt_zero hFits] at hWide
    contradiction
  obtain ⟨hStartEven, hStart⟩ := byteStart_lt value
  obtain ⟨hFound, hLater⟩ := fitsAt_byteStart hWide hEven hWindow hFits
  have hByte := (isByte_rotateRight_iff hStart).mpr hFound
  refine ⟨by rw [encode?_eq, if_pos hByte], ?_⟩
  calc encodingAt value (byteStart value)
      ≤ encodingAt value (windowOf encoded) :=
        encodingAt_le hEven hStartEven hPositive hLater hStart hByte
    _ = encoded := (eq_encodingAt hEncoded hExpand).symm

/-- If a value has an encoding, one is found that is no greater. -/
theorem encode?_le {value : Word} {encoded : Nat} (hEncoded : encoded < 4096)
    (hExpand : expand (.ofNat 32 encoded) = value) :
    ∃ least, encode? value = some least ∧ least ≤ encoded := by
  cases hByte : isByte value with
  | true => exact ⟨_, if_pos hByte, toNat_le_of_isByte hByte hEncoded hExpand⟩
  | false => exact ⟨_, encode?_le_of_wide hByte hEncoded hExpand⟩

/-- A value is encoded as the least of its twelve-bit encodings, and it is not encoded just
when it has none. -/
theorem encode?_canonical (value : Word) :
    (∀ encoded, encode? value = some encoded ↔
      encoded < 4096 ∧ expand (.ofNat 32 encoded) = value ∧
        ∀ other < encoded, expand (.ofNat 32 other) ≠ value) ∧
    (encode? value = none ↔ ∀ encoded < 4096, expand (.ofNat 32 encoded) ≠ value) := by
  constructor
  · intro encoded
    constructor
    · intro h
      obtain ⟨hEncoded, hExpand⟩ := expand_of_encode? h
      refine ⟨hEncoded, hExpand, fun other hOther hOtherExpand => ?_⟩
      obtain ⟨least, hLeast, hLe⟩ := encode?_le (by omega) hOtherExpand
      rw [h] at hLeast
      cases hLeast
      omega
    · rintro ⟨hEncoded, hExpand, hNone⟩
      obtain ⟨least, hLeast, hLe⟩ := encode?_le hEncoded hExpand
      have hNotLess : ¬ least < encoded := fun hLess =>
        hNone least hLess (expand_of_encode? hLeast).2
      have hSame : least = encoded := by omega
      rw [hLeast, hSame]
  · constructor
    · intro hNone encoded hEncoded hExpand
      obtain ⟨least, hLeast, _⟩ := encode?_le hEncoded hExpand
      rw [hNone] at hLeast
      contradiction
    · intro hNone
      cases hFound : encode? value with
      | none => rfl
      | some encoded =>
          obtain ⟨hEncoded, hExpand⟩ := expand_of_encode? hFound
          exact absurd hExpand (hNone encoded hEncoded)

/-- A byte that wraps around the top of the word is found at the second attempt. -/
example : encode? 0xf000000f = some 0x2ff := by decide +kernel

end OperandReport.Arm.RotatedImmediate
