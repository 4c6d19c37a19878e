import OperandReport.Arm.Contribution
import OperandReport.Proofs.Edits

/-!
# What operand forms contribute

There are two kinds of operand forms.  A form that looks back annotates the operand
before it, or does nothing; every other form adds operands of its own and leaves the
others alone.

`OperandForm.contributes` says of the second kind, once for all forms, what the
later arguments need: the edits are additive, a memory operand that is open stays
one, at most so many operands are completed, and the memory operands among them are
as many as the form brackets, with the access of the slot.  It is proved piece by
piece, since the forms share few pieces.

## Main results

* `OperandForm.contributes`: the forms that add operands.
* `OperandForm.edits_of_looksBack`: the forms that annotate.
* `OperandForm.edits_keeps`: no form spoils an open memory operand.
-/

namespace OperandReport.Arm

/-! ## Memory operands and bare operands -/

/-- The operand is a memory operand. -/
def Operand.isMemory (op : Operand) : Bool :=
  match op.value with
  | .memory _ => true
  | _ => false

/-- The operand without the parts that a later form may add. -/
def Operand.bare (op : Operand) : Operand :=
  { op with shift := {}, vectorIndex := none, lane := none }

@[simp] theorem Operand.isMemory_bare (op : Operand) : op.bare.isMemory = op.isMemory := rfl

/-- Changing the memory operand inside an open one gives a memory operand. -/
theorem Operand.modifyMemory_keeps (f : Memory → Memory) {op : Operand}
    (h : op.isMemory = true) : ∃ after, modifyMemory f op = .ok after ∧ after.isMemory = true := by
  unfold isMemory at h
  split at h
  · next m hValue =>
    exact ⟨{ op with value := .memory (f m) }, by simp [modifyMemory, hValue], rfl⟩
  · contradiction

/-- The edit respects an open memory operand. -/
abbrev KeepsMemory (edit : Edit Operand) : Prop := edit.Keeps (·.isMemory = true)

/-! ## Sorts of forms -/

namespace OperandForm

/-- The form annotates the operand before it and adds none. -/
def looksBack : OperandForm → Bool
  | fixedShift .. | vectorIndex | lane | packLeft | packRight | saturationShift | byteRotation =>
    true
  | _ => false

/-- The form finds something to annotate the operand before it with. -/
def annotates (e : Encoded) (i : Nat) : OperandForm → Bool
  | .fixedShift .. | .vectorIndex | .lane | .packRight => true
  | .packLeft | .byteRotation => (e.immediate i).word != 0
  | .saturationShift => (e.immediate i).word.toNat % 64 != 0
  | _ => false

theorem looksBack_of_annotates {e : Encoded} {i : Nat} {form : OperandForm}
    (h : form.annotates e i = true) : form.looksBack = true := by
  cases form <;> first | rfl | contradiction

/-- The memory form opens a memory operand whatever its first field is. -/
def alwaysBrackets : OperandForm → Bool
  | mode6 | baseOnly | shiftedIndex | exclusiveOffset | literal | tableByte | tableHalf
  | vectorOffsets _ => true
  | _ => false

/-- The form opens and closes a memory operand. -/
def brackets (e : Encoded) (i : Nat) (form : OperandForm) : Bool :=
  form.alwaysBrackets || form.isMemory && e.isRegister i

/-- The most operands that the form completes. -/
def most (e : Encoded) (i : Nat) : OperandForm → Nat
  | .registerList => e.fields.length - i
  | _ => 4

end OperandForm

/-- With a register at its first field, a memory form has a base. -/
theorem onBase_of_isRegister {e : Encoded} {i : Nat} (hBase : e.isRegister i = true)
    (edits : Register → List (Edit Operand)) : onBase e i edits = edits (registerAt e i) :=
  if_pos hBase

/-! ## Contributions of edits -/

/-- What is known of the edits of a form that adds operands. -/
structure Contributes (e : Encoded) (i most : Nat) (bracketed : Bool)
    (edits : List (Edit Operand)) : Prop where
  additive : ∀ edit ∈ edits, edit.isAdditive = true
  keeps : ∀ edit ∈ edits, KeepsMemory edit
  count : (Edit.completedBy edits).length ≤ most
  memory : ((Edit.completedBy edits).filter Operand.isMemory).map Operand.access =
    if bracketed then [nominalAccessAt e i] else []

namespace Contributes

variable {e : Encoded} {i : Nat}

theorem mono {most more : Nat} {bracketed : Bool} {edits : List (Edit Operand)}
    (h : Contributes e i most bracketed edits) (hMore : most ≤ more) :
    Contributes e i more bracketed edits :=
  { h with count := Nat.le_trans h.count hMore }

/-- After a memory operand, or after anything else, values may follow. -/
theorem append {m n : Nat} {bracketed : Bool} {edits more : List (Edit Operand)}
    (h : Contributes e i m bracketed edits) (hMore : Contributes e i n false more) :
    Contributes e i (m + n) bracketed (edits ++ more) where
  additive := by
    intro edit hEdit
    rcases List.mem_append.mp hEdit with hEdit | hEdit
    · exact h.additive edit hEdit
    · exact hMore.additive edit hEdit
  keeps := by
    intro edit hEdit
    rcases List.mem_append.mp hEdit with hEdit | hEdit
    · exact h.keeps edit hEdit
    · exact hMore.keeps edit hEdit
  count := by
    rw [Edit.completedBy_append, List.length_append]
    exact Nat.add_le_add h.count hMore.count
  memory := by
    rw [Edit.completedBy_append, List.filter_append, List.map_append, h.memory, hMore.memory]
    simp

theorem nil : Contributes e i 0 false [] where
  additive := by simp
  keeps := by simp
  count := Nat.le_refl 0
  memory := rfl

theorem note (text : String) : Contributes e i 0 false [.note text] where
  additive := by simp [Edit.isAdditive]
  keeps := by simp [KeepsMemory, Edit.Keeps]
  count := Nat.le_refl 0
  memory := rfl

/-- A value on its own. -/
theorem value {op : Operand} (h : op.isMemory = false) : Contributes e i 1 false [.report op] where
  additive := by simp [Edit.isAdditive]
  keeps := by simp [KeepsMemory, Edit.Keeps]
  count := Nat.le_refl 1
  memory := by simp [Edit.completed, h]

/-- A value that joins the open memory operand, if there is one. -/
theorem place {op : Operand} (f : Memory → Memory) (h : op.isMemory = false) :
    Contributes e i 1 false [.place op (Operand.modifyMemory f)] where
  additive := by simp [Edit.isAdditive]
  keeps := by
    intro edit hEdit
    rw [List.mem_singleton.mp hEdit]
    exact fun _ hOpen => Operand.modifyMemory_keeps f hOpen
  count := Nat.le_refl 1
  memory := by simp [Edit.completed, h]

/-- A memory operand with the access of the slot. -/
theorem bracket {op : Operand} (hMemory : op.isMemory = true)
    (hAccess : op.access = nominalAccessAt e i) : Contributes e i 1 true [.bracket op] where
  additive := by simp [Edit.isAdditive]
  keeps := by simp [KeepsMemory, Edit.Keeps]
  count := Nat.le_refl 1
  memory := by simp [Edit.completed, hMemory, hAccess]

theorem flatMap {β : Type} {xs : List β} {f : β → List (Edit Operand)}
    (h : ∀ x ∈ xs, Contributes e i 1 false (f x)) :
    Contributes e i xs.length false (xs.flatMap f) := by
  induction xs with
  | nil => exact nil
  | cons x xs ih =>
      obtain ⟨hFirst, hRest⟩ := List.forall_mem_cons.mp h
      rw [List.length_cons, Nat.add_comm]
      exact hFirst.append (ih hRest)

theorem filterMap {β : Type} {xs : List β} {f : β → Option (Edit Operand)}
    (h : ∀ x edit, f x = some edit → Contributes e i 1 false [edit]) :
    Contributes e i xs.length false (xs.filterMap f) := by
  induction xs with
  | nil => exact nil
  | cons x xs ih =>
      rw [List.filterMap_cons]
      cases hx : f x with
      | none => exact ih.mono (Nat.le_succ _)
      | some edit =>
          rw [List.length_cons, Nat.add_comm]
          exact (h x edit hx).append ih

/-- A field on its own adds one value, or none. -/
theorem plain (e : Encoded) (i : Nat) : Contributes e i 1 false (plainEdits e i) := by
  unfold plainEdits
  split
  · exact nil.mono (Nat.zero_le 1)
  · split
    · exact nil.mono (Nat.zero_le 1)
    · exact place _ rfl
  · exact place _ rfl

/-- A form on a base register brackets where there is one. -/
theorem onBase {most : Nat} {edits : Register → List (Edit Operand)} (hMost : 1 ≤ most)
    (h : ∀ base, Contributes e i most true (edits base)) :
    Contributes e i most (e.isRegister i) (onBase e i edits) := by
  unfold Arm.onBase
  cases hRegister : e.isRegister i with
  | true => exact h _
  | false => exact (plain e i).mono hMost

theorem register (e : Encoded) (i k : Nat) : Contributes e i 1 false [reportRegister e k] :=
  value rfl

theorem signedOffset (e : Encoded) (i : Nat) (showZero : Bool) :
    Contributes e i 1 (e.isRegister i) (signedOffsetEdits e i showZero) := by
  rw [signedOffsetEdits_eq]
  exact onBase (Nat.le_refl 1) fun _ => bracket rfl rfl

theorem scaledOffset (e : Encoded) (i scale : Nat) :
    Contributes e i 1 (e.isRegister i) (scaledOffsetEdits e i scale) :=
  onBase (Nat.le_refl 1) fun _ => bracket rfl rfl

theorem mode2 (e : Encoded) (i : Nat) : Contributes e i 1 (e.isRegister i) (mode2Edits e i) := by
  rw [mode2Edits_eq]
  refine onBase (Nat.le_refl 1) fun base => ?_
  dsimp only
  split
  · exact bracket rfl rfl
  · exact bracket rfl rfl

theorem mode3Offset (e : Encoded) (i k : Nat) :
    Contributes e k 1 false (mode3OffsetEdits e i) := by
  unfold mode3OffsetEdits
  dsimp only
  split
  · exact value rfl
  · exact value rfl

theorem mode3 (e : Encoded) (i : Nat) (showZero : Bool) :
    Contributes e i 2 (e.isRegister i) (mode3Edits e i showZero) := by
  rw [mode3Edits_eq]
  refine onBase (by decide) fun base => ?_
  dsimp only
  split
  · exact (bracket rfl rfl).append (mode3Offset e (i + 1) i)
  · split
    · exact (bracket rfl rfl).mono (by decide)
    · exact (bracket rfl rfl).mono (by decide)

theorem mode5 (e : Encoded) (i unit : Nat) (showZero : Bool) :
    Contributes e i 1 (e.isRegister i) (mode5Edits e i unit showZero) := by
  rw [mode5Edits_eq]
  exact onBase (Nat.le_refl 1) fun _ => bracket rfl rfl

/-- The parts of an aggregate. -/
theorem parts (e : Encoded) (i : Nat) {parts : List Part} (hMost : parts.length ≤ 4) :
    Contributes e i 4 false (partEdits e i parts) := by
  unfold partEdits
  dsimp only
  split
  · refine (flatMap fun part _ => ?_).mono hMost
    split
    · exact value rfl
    · exact (note _).append (value rfl)
  · exact ((note _).append (register e i i)).mono (by decide)

private theorem length_of_mapM {β γ : Type} {f : β → Option γ} {xs : List β} {ys : List γ}
    (h : xs.mapM f = some ys) : ys.length = xs.length := by
  induction xs generalizing ys with
  | nil =>
      cases h
      rfl
  | cons x xs ih =>
      rw [List.mapM_cons] at h
      obtain ⟨y, _, hTail⟩ := Option.bind_eq_some_iff.mp h
      obtain ⟨rest, hRest, hEq⟩ := Option.bind_eq_some_iff.mp hTail
      cases hEq
      rw [List.length_cons, List.length_cons, ih hRest]

/-- The registers of a run. -/
theorem run (e : Encoded) (i : Nat) {steps : List Nat} (hSteps : steps.length ≤ 4) :
    Contributes e i 4 false (runEdits e i steps) := by
  unfold runEdits
  dsimp only
  split
  · next registers hRun =>
    have hLength : registers.length ≤ 4 := by
      rw [length_of_mapM hRun]
      exact hSteps
    rw [List.map_eq_flatMap]
    exact (flatMap fun r _ => value rfl).mono hLength
  · exact ((note _).append (value rfl)).mono (by decide)

/-- The registers of a list. -/
theorem registerList (e : Encoded) (i : Nat) :
    Contributes e i (e.fields.length - i) false (registerListEdits e i) := by
  have hLength : (List.range' i (e.fields.length - i)).length = e.fields.length - i :=
    List.length_range'
  rw [← hLength]
  refine filterMap fun k edit hEdit => ?_
  dsimp only at hEdit
  split at hEdit
  · cases hEdit
    exact value rfl
  · contradiction

theorem vectorList (e : Encoded) (i : Nat) (shape : VectorShape) :
    Contributes e i 4 false (vectorListEdits e i shape) := by
  cases shape with
  | one => exact (register e i i).mono (by decide)
  | two | twoSpaced => exact parts e i (by simp)
  | three | four | threeSpaced | fourSpaced => exact run e i (by decide)

theorem banked (e : Encoded) (i : Nat) : Contributes e i 1 false (bankedEdits e i) := by
  unfold bankedEdits
  dsimp only
  split
  · exact value rfl
  · exact (note _).append (value rfl)

theorem vectorImmediate (e : Encoded) (i : Nat) :
    Contributes e i 1 false (vectorImmediateEdits e i) := by
  unfold vectorImmediateEdits
  dsimp only
  split
  · exact value rfl
  · exact (note _).append (value rfl)

theorem rotated (e : Encoded) (i : Nat) : Contributes e i 2 false (rotatedEdits e i) := by
  unfold rotatedEdits
  dsimp only
  split
  · exact (value rfl).mono (by decide)
  · exact (value rfl).append (value rfl)

end Contributes

/-! ## Contributions of forms -/

namespace OperandForm

/-- A form that does not look back adds operands of its own, at most so many, and
brackets a memory operand just when it says so. -/
theorem contributes (e : Encoded) (i : Nat) {form : OperandForm} (h : form.looksBack = false) :
    Contributes e i (form.most e i) (form.brackets e i) (form.edits e i) := by
  have hOne : 1 ≤ 4 := by decide
  have hTwo : 2 ≤ 4 := by decide
  cases form with
  | fixedShift | vectorIndex | lane | packLeft | packRight | saturationShift | byteRotation =>
      contradiction
  | plain => exact (Contributes.plain e i).mono hOne
  | rotatedImmediate => exact (Contributes.rotated e i).mono hTwo
  | registerList => exact Contributes.registerList e i
  | corePair => exact Contributes.parts e i (by decide)
  | vectorImmediate => exact (Contributes.vectorImmediate e i).mono hOne
  | vectorList shape allLanes => exact Contributes.vectorList e i shape
  | quadList count =>
      refine Contributes.parts e i ?_
      rw [List.length_take]
      exact Nat.min_le_right count 4
  | bankedRegister => exact (Contributes.banked e i).mono hOne
  | registerShifted | constantShifted | wideConstantShifted | timesFour | shiftDistance
  | coprocessor | coprocessorRegister | floatImmediate | complexRotation | coprocessorOption
  | postOffset | postWordOffset | postRegister | shortPostOffset | shortPostWordOffset
  | statusMask | plusOne | endianness | saturation | fractionBits =>
      exact (Contributes.value rfl).mono hOne
  | bitfield => exact ((Contributes.value rfl).append (Contributes.value rfl)).mono hTwo
  | baseOnly | literal | mode6 | exclusiveOffset | shiftedIndex | tableByte | tableHalf
  | vectorOffsets => exact (Contributes.bracket rfl rfl).mono hOne
  | scaledOffset scale => exact (Contributes.scaledOffset e i scale).mono hOne
  | stackOffset => exact (Contributes.scaledOffset e i 4).mono hOne
  | indexed =>
      exact (Contributes.onBase (Nat.le_refl 1) fun _ => Contributes.bracket rfl rfl).mono hOne
  | mode2 => exact (Contributes.mode2 e i).mono hOne
  | mode2Offset =>
      refine Contributes.mono ?_ hOne
      unfold edits
      dsimp only
      split
      · exact Contributes.value rfl
      · exact Contributes.value rfl
  | mode3 showZero => exact (Contributes.mode3 e i showZero).mono hTwo
  | mode3Offset => exact (Contributes.mode3Offset e i i).mono hOne
  | mode5 showZero => exact (Contributes.mode5 e i 4 showZero).mono hOne
  | mode5Half showZero => exact (Contributes.mode5 e i 2 showZero).mono hOne
  | mode6Offset =>
      refine Contributes.mono ?_ hOne
      show Contributes e i 1 false (if e.registerId i = 0 then [] else [reportRegister e i])
      split
      · exact Contributes.nil.mono (Nat.zero_le 1)
      · exact Contributes.register e i i
  | signedOffset showZero | shortOffset showZero | shortWordOffset showZero =>
      exact (Contributes.signedOffset e i showZero).mono hOne
  | label scale =>
      refine Contributes.mono ?_ hOne
      unfold edits
      dsimp only
      split
      · exact Contributes.value rfl
      · exact Contributes.value rfl

/-- The fixed shift is no empty one. -/
def shifts : OperandForm → Bool
  | .fixedShift code amount => (Shift.constant? (.ofCode code) amount).isSome
  | _ => true

/-- The change leaves everything but later parts of an operand alone. -/
abbrev KeepsBare (change : Operand → Operand) : Prop := ∀ op, (change op).bare = op.bare

/-- What a form that looks back does: it annotates the operand before it, or nothing. -/
inductive Annotates : Bool → List (Edit Operand) → Prop where
  | nothing : Annotates false []
  | change {change : Operand → Operand} (hBare : KeepsBare change) :
      Annotates true [.amend change]

private theorem annotates_amendShift (shift : Option Shift) :
    Annotates shift.isSome (amendShift shift) := by
  cases shift with
  | none => exact .nothing
  | some shift => exact .change fun _ => rfl

private theorem isSome_unless {p : Prop} [Decidable p] {shift : Shift} :
    (if p then none else some shift).isSome = !decide p := by
  by_cases hp : p
  · simp [hp]
  · simp [hp]

private theorem isSome_saturationShift? (w : Word) :
    (saturationShift? w).isSome = (w.toNat % 64 != 0) := by
  unfold saturationShift?
  dsimp only
  split
  · have hBits : w.toNat % 64 ≠ 0 := by omega
    simp [hBits]
  · split
    · have hBits : w.toNat % 64 = 0 := by omega
      simp [hBits]
    · have hBits : w.toNat % 64 ≠ 0 := by omega
      simp [hBits]

/-- A form that looks back adds no operand; it annotates the one before just when it
says so, unless it is an empty fixed shift. -/
theorem edits_of_looksBack (e : Encoded) (i : Nat) {form : OperandForm}
    (h : form.looksBack = true) :
    Annotates (form.annotates e i && form.shifts) (form.edits e i) := by
  cases form with
  | fixedShift code amount => exact annotates_amendShift (Shift.constant? (.ofCode code) amount)
  | vectorIndex | lane => exact .change fun _ => rfl
  | packRight => exact annotates_amendShift (some _)
  | saturationShift =>
      have hSome := annotates_amendShift (saturationShift? (e.immediate i).word)
      rw [isSome_saturationShift?] at hSome
      show Annotates (annotates e i saturationShift && true) _
      rw [Bool.and_true]
      exact hSome
  | packLeft =>
      have hSome := annotates_amendShift (if (e.immediate i).word.toNat = 0 then none
        else some ⟨.lsl, (e.immediate i).word.toNat⟩)
      have hZero : ((e.immediate i).word != 0) = !decide ((e.immediate i).word.toNat = 0) := by
        rw [Bool.eq_iff_iff]
        simp [BitVec.toNat_eq]
      rw [isSome_unless, ← hZero] at hSome
      show Annotates (annotates e i packLeft && true) _
      rw [Bool.and_true]
      exact hSome
  | byteRotation =>
      have hSome := annotates_amendShift (if (e.immediate i).word = 0 then none
        else some ⟨.ror, ((e.immediate i).word * 8).toNat⟩)
      rw [isSome_unless] at hSome
      show Annotates (annotates e i byteRotation && true) _
      rw [Bool.and_true]
      exact hSome
  | _ => contradiction

/-- A form that looks back completes nothing. -/
theorem completedBy_of_looksBack (e : Encoded) (i : Nat) {form : OperandForm}
    (h : form.looksBack = true) : Edit.completedBy (form.edits e i) = [] := by
  have hNone : ∀ {found : Bool} {edits : List (Edit Operand)}, Annotates found edits →
      Edit.completedBy edits = [] := by
    intro found edits hEdits
    cases hEdits <;> rfl
  exact hNone (edits_of_looksBack e i h)

private theorem keeps_of_annotates {found : Bool} {edits : List (Edit Operand)}
    (h : Annotates found edits) : ∀ edit ∈ edits, KeepsMemory edit := by
  cases h with
  | nothing => simp
  | change hBare =>
      intro edit hEdit
      rw [List.mem_singleton.mp hEdit]
      intro op hOp
      rw [← Operand.isMemory_bare, hBare op, Operand.isMemory_bare]
      exact hOp

/-- No form spoils the memory operand that is open. -/
theorem edits_keeps (e : Encoded) (i : Nat) (form : OperandForm) :
    ∀ edit ∈ form.edits e i, KeepsMemory edit := by
  cases hLooksBack : form.looksBack with
  | false => exact (contributes e i hLooksBack).keeps
  | true => exact keeps_of_annotates (edits_of_looksBack e i hLooksBack)

end OperandForm

end OperandReport.Arm
