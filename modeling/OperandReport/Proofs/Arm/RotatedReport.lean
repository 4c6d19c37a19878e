import Mathlib.Order.Bounds.Defs
import OperandReport.Proofs.Arm.RotatedImmediate
import OperandReport.Proofs.Arm.Visit

/-!
# Reports of rotated immediates

A rotated immediate is reported as its value only where the value gives the encoding back,
since the canonical encoding is the least one.  Every other word is reported as its byte
and its rotation, which also goes for a word with bits above the low twelve: no encoding
is that large.

Either way the report can be read back.  `shownValue` gives the value from what is shown,
and `shownCode` the encoding from a byte and a rotation.

## Main results

* `encode?_eq_some_iff_isLeast`: what is found is the least encoding.
* `visit_rotatedImmediate`: what is reported, and that it can be read back.
-/

namespace OperandReport.Arm

namespace RotatedImmediate

/-- The encodings of a value. -/
def encodings (value : Word) : Set Nat := {n | n < 4096 ∧ expand (.ofNat 32 n) = value}

/-- A number is found for a value just when it is the least encoding. -/
theorem encode?_eq_some_iff_isLeast {value : Word} {encoded : Nat} :
    encode? value = some encoded ↔ IsLeast (encodings value) encoded := by
  constructor
  · intro hFound
    refine ⟨expand_of_encode? hFound, fun other hOther => ?_⟩
    obtain ⟨least, hLeast, hLe⟩ := encode?_le hOther.1 hOther.2
    cases hFound.symm.trans hLeast
    exact hLe
  · rintro ⟨hMember, hLower⟩
    obtain ⟨least, hLeast, hLe⟩ := encode?_le hMember.1 hMember.2
    have hSame : least = encoded := Nat.le_antisymm hLe (hLower (expand_of_encode? hLeast))
    rw [hLeast, hSame]

/-- What is shown of a word: the value of its least encoding, or else its byte and an even
rotation that gives the value. -/
inductive Shown (w : Word) : List Imm → Prop where
  | value (hLeast : IsLeast (encodings (expand w)) w.toNat) :
      Shown w [.ofNat 64 (expand w).toNat]
  | parts (hOther : ¬ IsLeast (encodings (expand w)) w.toNat) (byte rotation : Nat)
      (hByte : byte = w.toNat % 256) (hEven : rotation % 2 = 0) (hTurn : rotation < 32)
      (hValue : (BitVec.ofNat 32 byte).rotateRight rotation = expand w) :
      Shown w [.ofNat 64 byte, .ofNat 64 rotation]

/-- The value that is shown, on its own or as a byte and a rotation. -/
def shownValue : List Imm → Word
  | [value] => value.word
  | [byte, rotation] => byte.word.rotateRight rotation.toNat
  | _ => 0

/-- The encoding with a byte and a rotation. -/
def shownCode : List Imm → Nat
  | [byte, rotation] => byte.toNat + 128 * rotation.toNat
  | _ => 0

/-- What is shown of a word: its value, or its byte and its rotation. -/
def shown (w : Word) : List Imm :=
  if encode? (expand w) = some w.toNat then [.ofNat 64 (expand w).toNat]
  else [.ofNat 64 (w.toNat % 256), .ofNat 64 (rotation w)]

theorem rotation_lt (w : Word) : rotation w < 32 := by
  unfold rotation
  omega

theorem shown_spec (w : Word) : Shown w (shown w) := by
  unfold shown
  split
  · next hFound =>
    exact .value (encode?_eq_some_iff_isLeast.mp hFound)
  · next hOther =>
    refine .parts (mt encode?_eq_some_iff_isLeast.mpr hOther) _ _ rfl ?_ (rotation_lt w) rfl
    unfold rotation
    omega

/-- A small number keeps its low word. -/
theorem word_ofNat (n : Nat) : Imm.word (.ofNat 64 n) = .ofNat 32 n :=
  BitVec.setWidth_ofNat_of_le (by decide) n

theorem toNat_ofNat_of_small {n : Nat} (h : n < 4096) : (BitVec.ofNat 64 n).toNat = n := by
  rw [BitVec.toNat_ofNat]
  omega

/-- The value can be read back. -/
theorem shownValue_shown (w : Word) : shownValue (shown w) = expand w := by
  unfold shown
  split
  · show Imm.word _ = _
    rw [word_ofNat, BitVec.ofNat_toNat, BitVec.setWidth_eq]
  · have hTurn := rotation_lt w
    show (Imm.word _).rotateRight (BitVec.ofNat 64 (rotation w)).toNat = _
    rw [word_ofNat, toNat_ofNat_of_small (by omega)]
    rfl

/-- Where a byte and a rotation are shown, the encoding can be read back. -/
theorem shownCode_shown {w : Word} (h : (shown w).length = 2) :
    shownCode (shown w) = w.toNat % 4096 := by
  unfold shown at h ⊢
  split at h
  · simp at h
  · next hOther =>
    have hTurn := rotation_lt w
    rw [if_neg hOther]
    show (BitVec.ofNat 64 (w.toNat % 256)).toNat +
      128 * (BitVec.ofNat 64 (rotation w)).toNat = _
    rw [toNat_ofNat_of_small (by omega), toNat_ofNat_of_small (by omega), rotation]
    omega

/-- No word above the low twelve bits is an encoding. -/
theorem length_shown_of_le {w : Word} (h : 4096 ≤ w.toNat) : (shown w).length = 2 := by
  unfold shown
  split
  · next hFound =>
    have hBound := (expand_of_encode? hFound).1
    omega
  · rfl

end RotatedImmediate

open RotatedImmediate

/-- What a rotated immediate adds is what is shown of its word. -/
theorem adds_rotatedImmediate (e : Encoded) (i : Nat) :
    Site.Adds e (.operand .rotatedImmediate i)
      ((shown (e.immediate i).word).map (Operand.ofImmediate · false)) := by
  refine Report.adds_of_additive rfl ?_
  show Edit.completedBy (rotatedEdits e i) = _
  unfold rotatedEdits shown
  dsimp only
  split
  · rfl
  · rw [shownRotation_eq]
    rfl

/-- A rotated immediate is reported without loss.  Its value is shown on its own just when
the word is the least encoding of it, and a byte and an even rotation are shown otherwise.
What is shown gives the value, and a byte and a rotation give the low twelve bits as well;
a word with other bits is always shown in parts. -/
theorem visit_rotatedImmediate (e : Encoded) (i : Nat) :
    ∃ shown : List Imm,
      Site.Adds e (.operand .rotatedImmediate i) (shown.map (Operand.ofImmediate · false)) ∧
      Shown (e.immediate i).word shown ∧
      shownValue shown = expand (e.immediate i).word ∧
      (shown.length = 2 → shownCode shown = (e.immediate i).word.toNat % 4096) ∧
      (4096 ≤ (e.immediate i).word.toNat → shown.length = 2) :=
  ⟨shown (e.immediate i).word, adds_rotatedImmediate e i, shown_spec _, shownValue_shown _,
    shownCode_shown, length_shown_of_le⟩

/-- Two encodings of one value: the least one is shown as the value, the other in parts. -/
example : shown 0x3c = [60] ∧ shown 0xf0f = [15, 30] := by
  decide +kernel

end OperandReport.Arm
