import OperandReport.Power.Contribution
import OperandReport.Proofs.Edits

/-!
# What PowerPC operand forms contribute

No PowerPC form looks back: every form adds operands of its own and leaves the others
alone.  A form whose field is a base register brackets a memory operand; without one it
falls back on immediates, so its shape is known only when the fields are.

`OperandForm.contributes` says for every form that it only adds, how much at most, and
that there is one memory operand among what it adds just when the form brackets.  The
operands of the memory forms are spelled out beside it, with and without a base.

## Main results

* `OperandForm.contributes`: what every form adds.
* `OperandForm.completed_of_displaced`, `OperandForm.completed_of_indexed`: the memory
  forms in both shapes.
-/

namespace OperandReport.Power

/-- The operand is a memory operand. -/
def Operand.isMemory (op : Operand) : Bool :=
  match op.value with
  | .memory _ => true
  | _ => false

/-! ## Fields on their own -/

/-- A register field with a known number names the register with that number. -/
theorem registerAt_of_field {e : Encoded} {i id : Nat} (hField : e.field i = .register id)
    (hKnown : (Register.ofId? id).isSome = true) : registerAt e i = ⟨id⟩ := by
  have hId : e.registerId i = id := by simp [Encoded.registerId, hField]
  rw [registerAt, hId]
  unfold Register.ofId? at hKnown ⊢
  split at hKnown
  · next hListed =>
    rw [if_pos hListed]
    rfl
  · contradiction

/-- The register that field `i` reports: the one it names, or the vector-scalar register
over it where the slot holds one. -/
def reportedRegister (e : Encoded) (i : Nat) : Register :=
  if i ∈ e.opcode.vectorScalarSlots then (registerAt e i).vectorScalar else registerAt e i

/-- What a field reports on its own: its register or its immediate, and nothing if it is
vacant. -/
def fieldOperand? (e : Encoded) (i : Nat) : Option Operand :=
  match e.field i with
  | .vacant => none
  | .register id => if id = 0 then none else some ⟨.register (reportedRegister e i), accessAt e i⟩
  | .immediate v => some (.ofImmediate v)

/-- Just a vacant field reports nothing. -/
theorem fieldOperand?_eq_none_iff {e : Encoded} {i : Nat} :
    fieldOperand? e i = none ↔ (e.field i).isVacant = true := by
  unfold fieldOperand?
  cases e.field i with
  | vacant => simp [Field.isVacant]
  | register id => by_cases hZero : id = 0 <;> simp [Field.isVacant, hZero]
  | immediate v => simp [Field.isVacant]

/-- A register field completes the register that it reports. -/
theorem completedBy_registerEdits (e : Encoded) (i : Nat) :
    Edit.completedBy (registerEdits e i) =
      [⟨.register (reportedRegister e i), accessAt e i⟩] := by
  unfold registerEdits reportedRegister
  by_cases hSlot : i ∈ e.opcode.vectorScalarSlots
  · by_cases hOverlap : (registerAt e i).overlapsVectorScalar = true
    · simp [hSlot, hOverlap, Edit.completed]
    · simp [hSlot, hOverlap, Edit.completed]
  · simp [hSlot, Edit.completed]

/-- A field on its own completes what it reports. -/
theorem completedBy_plainEdits (e : Encoded) (i : Nat) :
    Edit.completedBy (plainEdits e i) = (fieldOperand? e i).toList := by
  unfold plainEdits fieldOperand?
  cases e.field i with
  | vacant => rfl
  | register id =>
      by_cases hZero : id = 0
      · simp [hZero]
      · simpa [hZero] using completedBy_registerEdits e i
  | immediate v => rfl

/-! ## Contributions of edits -/

/-- What is known of the edits of a form: they only add operands, at most so many, and
one of them is a memory operand if they bracket. -/
structure Contributes (most : Nat) (bracketed : Bool) (edits : List (Edit Operand)) : Prop where
  additive : ∀ edit ∈ edits, edit.isAdditive = true
  count : (Edit.completedBy edits).length ≤ most
  memory : (Edit.completedBy edits).countP Operand.isMemory = bracketed.toNat

namespace Contributes

variable {e : Encoded} {i : Nat}

theorem mono {most more : Nat} {bracketed : Bool} {edits : List (Edit Operand)}
    (h : Contributes most bracketed edits) (hMore : most ≤ more) :
    Contributes more bracketed edits :=
  { h with count := Nat.le_trans h.count hMore }

/-- Values may follow on anything. -/
theorem append {m n : Nat} {bracketed : Bool} {edits more : List (Edit Operand)}
    (h : Contributes m bracketed edits) (hMore : Contributes n false more) :
    Contributes (m + n) bracketed (edits ++ more) where
  additive := by
    intro edit hEdit
    rcases List.mem_append.mp hEdit with hEdit | hEdit
    · exact h.additive edit hEdit
    · exact hMore.additive edit hEdit
  count := by
    rw [Edit.completedBy_append, List.length_append]
    exact Nat.add_le_add h.count hMore.count
  memory := by
    rw [Edit.completedBy_append, List.countP_append, h.memory, hMore.memory]
    rfl

theorem nil : Contributes 0 false [] where
  additive := by simp
  count := Nat.le_refl 0
  memory := rfl

/-- A note stands before anything. -/
theorem note {most : Nat} {bracketed : Bool} {edits : List (Edit Operand)} (text : String)
    (h : Contributes most bracketed edits) : Contributes most bracketed (.note text :: edits) where
  additive := List.forall_mem_cons.mpr ⟨rfl, h.additive⟩
  count := h.count
  memory := h.memory

/-- A value on its own. -/
theorem value {op : Operand} (h : op.isMemory = false) : Contributes 1 false [.report op] where
  additive := by simp [Edit.isAdditive]
  count := Nat.le_refl 1
  memory := by simp [Edit.completed, h]

/-- A memory operand. -/
theorem bracket {op : Operand} (h : op.isMemory = true) : Contributes 1 true [.bracket op] where
  additive := by simp [Edit.isAdditive]
  count := Nat.le_refl 1
  memory := by simp [Edit.completed, h]

theorem register (e : Encoded) (i : Nat) : Contributes 1 false (registerEdits e i) := by
  unfold registerEdits
  dsimp only
  split
  · split
    · exact value rfl
    · exact (value rfl).note _
  · exact value rfl

theorem plain (e : Encoded) (i : Nat) : Contributes 1 false (plainEdits e i) := by
  unfold plainEdits
  split
  · exact nil.mono (Nat.zero_le 1)
  · split
    · exact nil.mono (Nat.zero_le 1)
    · exact register e i
  · exact value rfl

theorem displaced (e : Encoded) (i : Nat) (displacement : Imm) :
    Contributes 1 (e.isRegister (i + 1)) (displacedEdits e i displacement) := by
  unfold displacedEdits
  cases e.isRegister (i + 1) with
  | true => exact bracket rfl
  | false => exact (value rfl).note _

theorem branch (e : Encoded) (i : Nat) : Contributes 1 false (branchEdits e i) := by
  unfold branchEdits
  dsimp only
  split
  · split
    · exact value rfl
    · exact value rfl
  · exact plain e i

end Contributes

/-! ## The open operand -/

section Open

variable (e : Encoded) (i : Nat)

private theorem registerEdits_ignoreOpen :
    (registerEdits e i).all Edit.ignoresOpen = true := by
  unfold registerEdits
  dsimp only
  split
  · split
    · rfl
    · rfl
  · rfl

private theorem plainEdits_ignoreOpen : (plainEdits e i).all Edit.ignoresOpen = true := by
  unfold plainEdits
  split
  · rfl
  · split
    · rfl
    · exact registerEdits_ignoreOpen e i
  · rfl

private theorem displacedEdits_ignoreOpen (displacement : Imm) :
    (displacedEdits e i displacement).all Edit.ignoresOpen = true := by
  unfold displacedEdits
  split
  · rfl
  · rfl

private theorem branchEdits_ignoreOpen : (branchEdits e i).all Edit.ignoresOpen = true := by
  unfold branchEdits
  dsimp only
  split
  · split
    · rfl
    · rfl
  · exact plainEdits_ignoreOpen e i

/-- No form has to do with an operand that is open already. -/
theorem OperandForm.edits_ignoreOpen (form : OperandForm) :
    (form.edits e i).all Edit.ignoresOpen = true := by
  cases form with
  | plain => exact plainEdits_ignoreOpen e i
  | indexed =>
      simp only [edits]
      split
      · rfl
      · simp [Edit.ignoresOpen, baseMissing, plainEdits_ignoreOpen]
  | displaced | displacedExactly | displacedFar => exact displacedEdits_ignoreOpen e i _
  | displacedFromPc | unsigned | signed | absoluteBranch => rfl
  | zero =>
      simp only [edits]
      split
      · rfl
      · rfl
  | branch | annotatedCall => exact branchEdits_ignoreOpen e i
  | predicateRegister =>
      simp only [edits]
      split
      · rfl
      · exact registerEdits_ignoreOpen e (i + 1)
  | conditionField => exact registerEdits_ignoreOpen e i

/-- So every form respects every property of it. -/
theorem OperandForm.edits_keeps (p : Operand → Prop) (form : OperandForm) :
    ∀ edit ∈ form.edits e i, edit.Keeps p := fun edit hEdit =>
  Edit.keeps_of_ignoresOpen (List.all_eq_true.mp (form.edits_ignoreOpen e i) edit hEdit) p

end Open

/-! ## Contributions of forms -/

namespace OperandForm

/-- The form opens and closes a memory operand. -/
def brackets (e : Encoded) (i : Nat) : OperandForm → Bool
  | .displacedFromPc => true
  | .indexed => e.isRegister i
  | .displaced | .displacedExactly | .displacedFar => e.isRegister (i + 1)
  | _ => false

/-- The form has a displacement and expects a base at the next field. -/
def isDisplaced : OperandForm → Bool
  | .displaced | .displacedExactly | .displacedFar => true
  | _ => false

/-- The displacement that a memory form reads at field `i`. -/
def displacement (e : Encoded) (i : Nat) : OperandForm → Imm
  | .displaced => signedField 16 (e.immediate i)
  | .displacedExactly => e.immediate i
  | .displacedFar | .displacedFromPc => signedField 34 (e.immediate i)
  | _ => 0

/-- The most operands that the form completes, whatever the fields are. -/
def limit : OperandForm → Nat
  | .indexed => 2
  | _ => 1

/-- Every form only adds operands, at most so many, and brackets a memory operand just
when it says so. -/
theorem contributes (e : Encoded) (i : Nat) (form : OperandForm) :
    Contributes form.limit (form.brackets e i) (form.edits e i) := by
  cases form with
  | plain => exact Contributes.plain e i
  | indexed =>
      show Contributes 2 (e.isRegister i) _
      simp only [edits]
      cases e.isRegister i with
      | true => exact (Contributes.bracket rfl).mono (by decide)
      | false => exact ((Contributes.plain e i).append (Contributes.plain e (i + 1))).note _
  | displaced | displacedExactly | displacedFar => exact Contributes.displaced e i _
  | displacedFromPc => exact Contributes.bracket rfl
  | unsigned | signed | absoluteBranch => exact Contributes.value rfl
  | zero =>
      simp only [edits]
      split
      · exact Contributes.value rfl
      · exact (Contributes.value rfl).note _
  | branch | annotatedCall => exact Contributes.branch e i
  | predicateRegister =>
      simp only [edits]
      split
      · exact Contributes.nil.mono (Nat.zero_le 1)
      · exact Contributes.register e (i + 1)
  | conditionField => exact Contributes.register e i

/-- A displacement is completed with its base, or on its own as an immediate. -/
theorem completed_of_displaced (e : Encoded) (i : Nat) {form : OperandForm}
    (h : form.isDisplaced = true) :
    Edit.completedBy (form.edits e i) =
      if e.isRegister (i + 1) then
        [memoryOperand e
          { base := baseAt e (i + 1), displacement := form.displacement e i }]
      else [.ofImmediate (form.displacement e i)] := by
  have hEdits : form.edits e i = displacedEdits e i (form.displacement e i) := by
    cases form <;> first | rfl | contradiction
  rw [hEdits, displacedEdits]
  split
  · rfl
  · rfl

/-- An indexed form completes a base with its index, or both fields on their own. -/
theorem completed_of_indexed (e : Encoded) (i : Nat) :
    Edit.completedBy (OperandForm.indexed.edits e i) =
      if e.isRegister i then
        [memoryOperand e { base := baseAt e i, index := registerAt e (i + 1) }]
      else (fieldOperand? e i).toList ++ (fieldOperand? e (i + 1)).toList := by
  simp only [edits]
  split
  · rfl
  · show Edit.completedBy (plainEdits e i ++ plainEdits e (i + 1)) = _
    rw [Edit.completedBy_append, completedBy_plainEdits, completedBy_plainEdits]

end OperandForm

end OperandReport.Power
