import OperandReport.Instruction
import OperandReport.Rejection
import OperandReport.Slot

/-!
# Screening of fields

Fields are checked against the slot table before anything else is done with them;
the first one that does not suit its slot is blamed.  A vacant field suits every
slot, and an immediate may stand where a memory base is expected.

Which register numbers exist is up to the architecture.

## Main results

* `misfit?_vacant`: a vacant field suits every slot.
* `firstMisfit?_eq_none_iff`: no field is blamed exactly when each suits its slot.
* `misfit?_of_screen`: each field of a screened instruction does.
-/

namespace OperandReport

/-- What is wrong with a field in a slot, if anything. -/
def misfit? (known : Nat → Bool) (field : Field) (kind : SlotKind) : Option Rejection.Kind :=
  match field, kind with
  | .vacant, _ => none
  | .register id, .register | .register id, .memoryRegister =>
    if known id then none else some .unknownRegister
  | .immediate _, .immediate | .immediate _, .memoryImmediate
  | .immediate _, .memoryRegister => none
  | _, _ => some .misfit

/-- The first field that does not suit its slot, counting from slot `i`. -/
def firstMisfit? (known : Nat → Bool) (slots : SlotTable) (i : Nat) :
    List Field → Option Rejection
  | [] => none
  | field :: rest =>
    match misfit? known field (slots.describe i).kind with
    | some kind => some (.blaming kind i)
    | none => firstMisfit? known slots (i + 1) rest

/-- Checks a number of fields, and then each field, against a slot table. -/
def screen (known : Nat → Bool) (takes : Nat → Bool) (slots : SlotTable)
    (fields : List Field) : Except Rejection Unit :=
  if takes fields.length then
    match firstMisfit? known slots 0 fields with
    | some rejection => .error rejection
    | none => .ok ()
  else .error ⟨.fieldCount, none⟩

/-- A vacant field suits every slot. -/
theorem misfit?_vacant (known : Nat → Bool) (kind : SlotKind) :
    misfit? known .vacant kind = none := by cases kind <;> rfl

/-- A register suits the slots of registers, if its number is known. -/
theorem misfit?_register_eq_none_iff {known : Nat → Bool} {id : Nat} {kind : SlotKind} :
    misfit? known (.register id) kind = none ↔
      known id = true ∧ (kind = .register ∨ kind = .memoryRegister) := by
  cases kind <;> simp [misfit?]

/-- No field is blamed exactly when each suits its slot. -/
theorem firstMisfit?_eq_none_iff {known : Nat → Bool} {slots : SlotTable} {i : Nat}
    {fields : List Field} :
    firstMisfit? known slots i fields = none ↔
      ∀ (k : Nat) (h : k < fields.length),
        misfit? known fields[k] (slots.describe (i + k)).kind = none := by
  induction fields generalizing i with
  | nil => simp [firstMisfit?]
  | cons field rest ih =>
    rw [firstMisfit?]
    constructor
    · intro h k hk
      split at h
      · simp at h
      · next hm =>
        cases k with
        | zero => simpa using hm
        | succ k =>
          rw [show i + (k + 1) = i + 1 + k by omega]
          simpa only [List.getElem_cons_succ] using ih.mp h k (Nat.lt_of_succ_lt_succ hk)
    · intro h
      have h0 := h 0 (by simp)
      simp only [Nat.add_zero, List.getElem_cons_zero] at h0
      rw [h0]
      refine ih.mpr fun k hk => ?_
      rw [show i + 1 + k = i + (k + 1) by omega]
      simpa only [List.getElem_cons_succ] using h (k + 1) (Nat.succ_lt_succ hk)

/-- In screened fields every field suits its slot, the vacant ones behind the last included. -/
theorem misfit?_of_screen {known : Nat → Bool} {takes : Nat → Bool} {slots : SlotTable}
    {fields : List Field} (h : screen known takes slots fields = .ok ()) (i : Nat) :
    misfit? known (fields.getD i .vacant) (slots.describe i).kind = none := by
  have hNone : firstMisfit? known slots 0 fields = none := by
    unfold screen at h
    split at h
    · split at h
      · contradiction
      · next hNone => exact hNone
    · contradiction
  by_cases hIn : i < fields.length
  · have hSuits := firstMisfit?_eq_none_iff.mp hNone i hIn
    rw [Nat.zero_add] at hSuits
    simpa [hIn] using hSuits
  · have hBehind : fields.getD i .vacant = .vacant := by simp [Nat.le_of_not_lt hIn]
    rw [hBehind]
    exact misfit?_vacant known _

end OperandReport
