import OperandReport.Cursor.Edit

/-!
# Edits on a cursor

Two things are said about a list of edits before it meets a cursor.

`Edit.completed` is what an edit completes while nothing is open.  On a closed
cursor the edits that do not look back complete exactly these operands, or find
the cursor full: `Cursor.applyAll_of_additive` is an equation and leaves no third
outcome.

`Edit.Complete p` and `Edit.Maintains p` carry a property of single operands over to
all that a closed cursor holds.

`Edit.Keeps p` says that an edit respects a property `p` of the open operand.  A
cursor that `Fits p` has room for its open operand, and that operand has the
property.  Every edit leaves such a cursor as open as it was, and the faults that it
can end in are those of the cursor itself.

## Main results

* `Cursor.applyAll_of_additive`: what a closed cursor becomes.
* `Cursor.applyAll_maintains`: what all operands keep over a list of edits.
* `Cursor.applyAll_fits`, `Cursor.applyAll_fault`: the invariant over a list of
  edits, and the faults that remain under it.
-/

namespace OperandReport

namespace Edit

variable {α : Type}

/-- What the edit completes while nothing is open. -/
def completed : Edit α → List α
  | .report a | .bracket a | .place a _ => [a]
  | .note _ | .amend _ => []

/-- The edit changes no operand that is there already, unless one is open. -/
def isAdditive : Edit α → Bool
  | .amend _ => false
  | _ => true

/-- The edit respects a property of the open operand. -/
def Keeps (p : α → Prop) : Edit α → Prop
  | .amend change => ∀ a, p a → p (change a)
  | .place _ merge => ∀ a, p a → ∃ b, merge a = .ok b ∧ p b
  | .note _ | .report _ | .bracket _ => True

/-- The edit has nothing to do with the operand that is open. -/
def ignoresOpen : Edit α → Bool
  | .note _ | .report _ | .bracket _ => true
  | .amend _ | .place .. => false

theorem keeps_of_ignoresOpen {edit : Edit α} (h : edit.ignoresOpen = true) (p : α → Prop) :
    edit.Keeps p := by
  cases edit with
  | note | report | bracket => trivial
  | amend | place => contradiction

/-- What a list of edits completes while nothing is open. -/
def completedBy (edits : List (Edit α)) : List α := edits.flatMap completed

@[simp] theorem completedBy_nil : completedBy ([] : List (Edit α)) = [] := rfl

@[simp] theorem completedBy_cons (edit : Edit α) (edits : List (Edit α)) :
    completedBy (edit :: edits) = edit.completed ++ completedBy edits := rfl

@[simp] theorem completedBy_append (edits more : List (Edit α)) :
    completedBy (edits ++ more) = completedBy edits ++ completedBy more :=
  List.flatMap_append

/-- Operands that are reported are completed as they are. -/
theorem completedBy_map_report (as : List α) : completedBy (as.map .report) = as := by
  induction as with
  | nil => rfl
  | cons a rest ih => rw [List.map_cons, completedBy_cons, ih]; rfl

/-- Every operand that the edits complete while nothing is open has the property. -/
def Complete (p : α → Prop) (edits : List (Edit α)) : Prop := ∀ a ∈ completedBy edits, p a

namespace Complete

variable {p q : α → Prop} {edits more : List (Edit α)} {a : α}

theorem mono (h : Complete p edits) (hp : ∀ a, p a → q a) : Complete q edits :=
  fun a ha => hp a (h a ha)

theorem nil : Complete p [] := fun _ ha => absurd ha List.not_mem_nil

theorem note (text : String) : Complete p [.note text] :=
  fun _ ha => absurd ha List.not_mem_nil

theorem report (h : p a) : Complete p [.report a] :=
  fun _ hb => List.mem_singleton.mp hb ▸ h

theorem bracket (h : p a) : Complete p [.bracket a] :=
  fun _ hb => List.mem_singleton.mp hb ▸ h

theorem place (h : p a) (merge : α → Except Fault α) : Complete p [.place a merge] :=
  fun _ hb => List.mem_singleton.mp hb ▸ h

theorem append (h : Complete p edits) (hMore : Complete p more) :
    Complete p (edits ++ more) := by
  intro a ha
  rw [completedBy_append] at ha
  rcases List.mem_append.mp ha with ha | ha
  · exact h a ha
  · exact hMore a ha

theorem cons {edit : Edit α} (h : Complete p [edit]) (hMore : Complete p more) :
    Complete p (edit :: more) :=
  h.append hMore

theorem flatMap {β : Type} {xs : List β} {f : β → List (Edit α)}
    (h : ∀ x ∈ xs, Complete p (f x)) : Complete p (xs.flatMap f) := by
  induction xs with
  | nil => exact nil
  | cons x xs ih =>
      obtain ⟨hFirst, hRest⟩ := List.forall_mem_cons.mp h
      exact hFirst.append (ih hRest)

theorem filterMap {β : Type} {xs : List β} {f : β → Option (Edit α)}
    (h : ∀ x edit, f x = some edit → Complete p [edit]) : Complete p (xs.filterMap f) := by
  induction xs with
  | nil => exact nil
  | cons x xs ih =>
      rw [List.filterMap_cons]
      cases hx : f x with
      | none => exact ih
      | some edit => exact (h x edit hx).append ih

end Complete

/-- While nothing is open, the edit completes only operands with the property, and it takes
the property from none. -/
def Maintains (p : α → Prop) : Edit α → Prop
  | .amend change => ∀ a, p a → p (change a)
  | edit => ∀ a ∈ edit.completed, p a

/-- Edits that do not look back maintain what all their operands have. -/
theorem maintains_of_complete {p : α → Prop} {edits : List (Edit α)}
    (hAdditive : ∀ edit ∈ edits, edit.isAdditive = true) (h : Complete p edits) :
    ∀ edit ∈ edits, edit.Maintains p := by
  intro edit hEdit
  have hOwn : ∀ a ∈ edit.completed, p a := fun a ha => h a (List.mem_flatMap.mpr ⟨edit, hEdit, ha⟩)
  cases edit with
  | amend change => exact absurd (hAdditive _ hEdit) Bool.false_ne_true
  | note | report | bracket | place => exact hOwn

end Edit

/-- The fault is one of the operand cursor. -/
def Fault.isOfCursor : Fault → Bool
  | .operandsFull _ | .operandMissing .. | .addedWhileOpen | .openedTwice | .notOpen => true
  | _ => false

/-- The fault is one of the operand cursor, or of settling a report that has an open
operand. -/
def Fault.isOfAssembly : Fault → Bool
  | .leftOpen _ => true
  | f => f.isOfCursor

theorem Fault.isOfAssembly_of_isOfCursor {f : Fault} (h : f.isOfCursor = true) :
    f.isOfAssembly = true := by
  cases f <;> first | rfl | contradiction

namespace Cursor

variable {α : Type} {capacity : Nat}

/-- The cursor with further operands completed. -/
def extend (c : Cursor α capacity) (xs : List α) : Cursor α capacity :=
  { c with recent := xs.reverse ++ c.recent }

@[simp] theorem extend_nil (c : Cursor α capacity) : c.extend [] = c := rfl

@[simp] theorem extend_extend (c : Cursor α capacity) (xs ys : List α) :
    (c.extend xs).extend ys = c.extend (xs ++ ys) := by
  simp [extend]

@[simp] theorem length_extend (c : Cursor α capacity) (xs : List α) :
    (c.extend xs).length = c.length + xs.length := by
  simp [extend, length, Nat.add_comm]

@[simp] theorem toList_extend (c : Cursor α capacity) (xs : List α) :
    (c.extend xs).toList = c.toList ++ xs := by
  simp [extend, toList]

/-- Nothing is open, and the capacity is kept. -/
structure AtRest (c : Cursor α capacity) : Prop where
  closed : c.isOpen = false
  bound : c.length ≤ capacity

theorem atRest_empty : (empty : Cursor α capacity).AtRest := ⟨rfl, Nat.zero_le _⟩

theorem atRest_extend {c : Cursor α capacity} {xs : List α} (hRest : c.AtRest)
    (hRoom : c.length + xs.length ≤ capacity) : (c.extend xs).AtRest where
  closed := hRest.closed
  bound := by simpa using hRoom

/-- On a closed cursor, completing an operand only fails for want of room. -/
private theorem push_of_closed {c : Cursor α capacity} (a : α) (hClosed : c.isOpen = false) :
    c.push a =
      if c.length + 1 ≤ capacity then .ok (c.extend [a]) else .error (.operandsFull capacity) := by
  simp only [push, hClosed, Bool.false_eq_true, if_false]
  rfl

/-- One additive edit on a closed cursor completes what it says, or finds the cursor
full. -/
theorem apply_of_additive {c : Cursor α capacity} {edit : Edit α} (hRest : c.AtRest)
    (hAdditive : edit.isAdditive = true) :
    (c.apply edit).result =
      if c.length + edit.completed.length ≤ capacity then .ok (c.extend edit.completed)
      else .error (.operandsFull capacity) := by
  cases edit with
  | note text => simp [apply, Edit.completed, hRest.bound]
  | report a => exact push_of_closed a hRest.closed
  | bracket a =>
      show (c.start a).bind close = _
      rw [start_bind_close hRest.closed]
      exact push_of_closed a hRest.closed
  | amend change => simp [Edit.isAdditive] at hAdditive
  | place a merge =>
      show (if c.isOpen then c.modifyOpen merge else c.push a) = _
      rw [hRest.closed]
      exact push_of_closed a hRest.closed

/-- Additive edits on a closed cursor complete what they say, in order, or find the
cursor full. -/
theorem applyAll_of_additive {c : Cursor α capacity} {edits : List (Edit α)}
    (hRest : c.AtRest) (hAdditive : ∀ edit ∈ edits, edit.isAdditive = true) :
    (c.applyAll edits).result =
      if c.length + (Edit.completedBy edits).length ≤ capacity
      then .ok (c.extend (Edit.completedBy edits))
      else .error (.operandsFull capacity) := by
  induction edits generalizing c with
  | nil => simp [applyAll, hRest.bound]
  | cons edit rest ih =>
      obtain ⟨hFirst, hOthers⟩ := List.forall_mem_cons.mp hAdditive
      have hHead := apply_of_additive hRest hFirst
      by_cases hRoom : c.length + edit.completed.length ≤ capacity
      · rw [if_pos hRoom] at hHead
        rw [applyAll, Outcome.result_bind_ok hHead, ih (atRest_extend hRest hRoom) hOthers]
        simp [Nat.add_assoc]
      · rw [if_neg hRoom] at hHead
        have hFull : ¬ c.length + (Edit.completedBy (edit :: rest)).length ≤ capacity := by
          simp only [Edit.completedBy_cons, List.length_append]
          omega
        rw [applyAll, Outcome.result_bind_error hHead, if_neg hFull]

/-- What is made of a closed cursor after additive edits. -/
theorem map_applyAll_of_additive {β : Type} {c : Cursor α capacity} {edits : List (Edit α)}
    (hRest : c.AtRest) (hAdditive : ∀ edit ∈ edits, edit.isAdditive = true)
    (f : Cursor α capacity → β) :
    ((c.applyAll edits).map f).result =
      if c.length + (Edit.completedBy edits).length ≤ capacity
      then .ok (f (c.extend (Edit.completedBy edits)))
      else .error (.operandsFull capacity) := by
  rw [Outcome.map, applyAll_of_additive hRest hAdditive]
  split
  · rfl
  · rfl

/-- Amending a closed cursor changes its newest operand, or finds none. -/
theorem amend_of_atRest {c : Cursor α capacity} (hRest : c.AtRest) (f : α → α) :
    c.amend f =
      if c.length = 0 then .error (.operandMissing (-1) 0 false) else .ok (c.modifyLast f) := by
  have hPending : c.pending = none := by simpa [isOpen] using hRest.closed
  cases hRecent : c.recent with
  | nil => simp [amend, hPending, length, hRecent]
  | cons a older =>
      rw [amend_of_closed hPending hRecent]
      simp [length, modifyLast, hRecent]

theorem atRest_modifyLast {c : Cursor α capacity} (hRest : c.AtRest) (f : α → α) :
    (c.modifyLast f).AtRest where
  closed := hRest.closed
  bound := by
    have hBound := hRest.bound
    simpa [length, modifyLast] using hBound

/-- A view that the change does not reach stays the same. -/
theorem map_toList_modifyLast {β : Type} {c : Cursor α capacity} {f : α → α} {view : α → β}
    (hView : ∀ a, view (f a) = view a) :
    (c.modifyLast f).toList.map view = c.toList.map view := by
  cases hRecent : c.recent with
  | nil => simp [modifyLast, toList, hRecent]
  | cons a older => simp [modifyLast, toList, hRecent, hView]

theorem forall_mem_modifyLast {p : α → Prop} {c : Cursor α capacity} {f : α → α}
    (hAll : ∀ a ∈ c.toList, p a) (hf : ∀ a, p a → p (f a)) :
    ∀ a ∈ (c.modifyLast f).toList, p a := by
  simp only [toList, List.mem_reverse, modifyLast] at hAll ⊢
  cases hRecent : c.recent with
  | nil => simp
  | cons newest older =>
      rw [hRecent] at hAll
      obtain ⟨hNewest, hOlder⟩ := List.forall_mem_cons.mp hAll
      exact List.forall_mem_cons.mpr ⟨hf newest hNewest, hOlder⟩

/-- On a closed cursor, one edit keeps a property of all operands that it maintains. -/
theorem apply_maintains {p : α → Prop} {c d : Cursor α capacity} {edit : Edit α}
    (hRest : c.AtRest) (hAll : ∀ a ∈ c.toList, p a) (hMaintains : edit.Maintains p)
    (h : (c.apply edit).result = .ok d) : d.AtRest ∧ ∀ a ∈ d.toList, p a := by
  have hCompletes : edit.isAdditive = true → (∀ a ∈ edit.completed, p a) →
      d.AtRest ∧ ∀ a ∈ d.toList, p a := by
    intro hAdditive hOwn
    rw [apply_of_additive hRest hAdditive] at h
    split at h
    · next hRoom =>
      cases h
      refine ⟨atRest_extend hRest hRoom, ?_⟩
      rw [toList_extend]
      exact List.forall_mem_append.mpr ⟨hAll, hOwn⟩
    · contradiction
  cases edit with
  | amend change =>
      change c.amend change = .ok d at h
      rw [amend_of_atRest hRest] at h
      split at h
      · contradiction
      · cases h
        exact ⟨atRest_modifyLast hRest change, forall_mem_modifyLast hAll hMaintains⟩
  | note | report | bracket | place => exact hCompletes rfl hMaintains

/-- On a closed cursor, edits keep a property of all operands that each of them maintains. -/
theorem applyAll_maintains {p : α → Prop} {c d : Cursor α capacity} {edits : List (Edit α)}
    (hRest : c.AtRest) (hAll : ∀ a ∈ c.toList, p a) (hMaintains : ∀ edit ∈ edits, edit.Maintains p)
    (h : (c.applyAll edits).result = .ok d) : ∀ a ∈ d.toList, p a := by
  induction edits generalizing c with
  | nil =>
      cases h
      exact hAll
  | cons edit rest ih =>
      obtain ⟨hFirst, hOthers⟩ := List.forall_mem_cons.mp hMaintains
      obtain ⟨next, hNext, hLater⟩ := Outcome.result_bind_eq_ok_iff.mp h
      obtain ⟨hNextRest, hNextAll⟩ := apply_maintains hRest hAll hFirst hNext
      exact ih hNextRest hNextAll hOthers hLater

/-- There is room for the open operand, and it has the property. -/
structure Fits (p : α → Prop) (c : Cursor α capacity) : Prop where
  room : c.length + c.isOpen.toNat ≤ capacity
  pending : ∀ a, c.pending = some a → p a

theorem fits_empty (p : α → Prop) : (empty : Cursor α capacity).Fits p where
  room := Nat.zero_le _
  pending := by simp [empty]

theorem fits_of_push {p : α → Prop} {c d : Cursor α capacity} {a : α} (hFits : c.Fits p)
    (h : c.push a = .ok d) : d.Fits p ∧ d.isOpen = c.isOpen := by
  unfold push at h
  split at h
  · contradiction
  · next hOpen =>
    split at h
    · next hRoom =>
      cases h
      refine ⟨⟨?_, hFits.pending⟩, rfl⟩
      have hClosed : c.isOpen = false := by simpa using hOpen
      show c.length + 1 + c.isOpen.toNat ≤ capacity
      rw [hClosed]
      exact hRoom
    · contradiction

theorem fits_of_start {p : α → Prop} {c d : Cursor α capacity} {a : α} (ha : p a)
    (h : c.start a = .ok d) : d.Fits p := by
  unfold start at h
  split at h
  · contradiction
  · split at h
    · next hRoom =>
      cases h
      refine ⟨hRoom, ?_⟩
      intro b hb
      cases hb
      exact ha
    · contradiction

theorem fits_of_close {p : α → Prop} {c d : Cursor α capacity} (hFits : c.Fits p)
    (h : c.close = .ok d) : d.Fits p := by
  unfold close at h
  split at h
  · contradiction
  · next a ha =>
    cases h
    refine ⟨?_, nofun⟩
    have hRoom := hFits.room
    simp only [isOpen, ha, Option.isSome_some, Bool.toNat_true] at hRoom
    exact hRoom

theorem fits_of_modifyOpen {p : α → Prop} {c d : Cursor α capacity} {f : α → Except Fault α}
    (hFits : c.Fits p) (hf : ∀ a, p a → ∃ b, f a = .ok b ∧ p b)
    (h : c.modifyOpen f = .ok d) : d.Fits p ∧ d.isOpen = c.isOpen := by
  unfold modifyOpen at h
  split at h
  · contradiction
  · next a ha =>
    obtain ⟨b, hb, hpb⟩ := hf a (hFits.pending a ha)
    rw [hb] at h
    cases h
    have hRoom := hFits.room
    refine ⟨⟨?_, ?_⟩, ?_⟩
    · simpa [length, isOpen, ha] using hRoom
    · intro x hx
      cases hx
      exact hpb
    · simp [isOpen, ha]

theorem fits_of_amend {p : α → Prop} {c d : Cursor α capacity} {f : α → α} (hFits : c.Fits p)
    (hf : ∀ a, p a → p (f a)) (h : c.amend f = .ok d) : d.Fits p ∧ d.isOpen = c.isOpen := by
  have hRoom := hFits.room
  unfold amend at h
  split at h
  · next _ a ha =>
    cases h
    refine ⟨⟨?_, ?_⟩, ?_⟩
    · simpa [length, isOpen, ha] using hRoom
    · intro x hx
      cases hx
      exact hf a (hFits.pending a ha)
    · simp [isOpen, ha]
  · next a older hNone hRecent =>
    cases h
    refine ⟨⟨?_, hFits.pending⟩, rfl⟩
    simpa [length, isOpen, hRecent] using hRoom
  · contradiction

/-- One edit keeps the invariant, and what was open stays open. -/
theorem apply_fits {p : α → Prop} {c d : Cursor α capacity} {edit : Edit α} (hFits : c.Fits p)
    (hKeeps : edit.Keeps p) (h : (c.apply edit).result = .ok d) :
    d.Fits p ∧ d.isOpen = c.isOpen := by
  cases edit with
  | note text =>
      cases h
      exact ⟨hFits, rfl⟩
  | report a => exact fits_of_push hFits h
  | bracket a =>
      by_cases hOpen : c.isOpen = true
      · simp [apply, start, hOpen, Except.bind] at h
      · change (c.start a).bind close = .ok d at h
        rw [start_bind_close (by simpa using hOpen)] at h
        exact fits_of_push hFits h
  | amend change => exact fits_of_amend hFits hKeeps h
  | place a merge =>
      by_cases hOpen : c.isOpen = true
      · simp only [apply, hOpen, if_true, Outcome.result_ofResult] at h
        exact fits_of_modifyOpen hFits hKeeps h
      · simp only [apply, hOpen, Outcome.result_ofResult] at h
        exact fits_of_push hFits h

/-- Edits keep the invariant, and what was open stays open. -/
theorem applyAll_fits {p : α → Prop} {c d : Cursor α capacity} {edits : List (Edit α)}
    (hFits : c.Fits p) (hKeeps : ∀ edit ∈ edits, edit.Keeps p)
    (h : (c.applyAll edits).result = .ok d) : d.Fits p ∧ d.isOpen = c.isOpen := by
  induction edits generalizing c with
  | nil =>
      cases h
      exact ⟨hFits, rfl⟩
  | cons edit rest ih =>
      obtain ⟨hFirst, hOthers⟩ := List.forall_mem_cons.mp hKeeps
      obtain ⟨next, hNext, hRest⟩ := Outcome.result_bind_eq_ok_iff.mp h
      obtain ⟨hFitsNext, hOpenNext⟩ := apply_fits hFits hFirst hNext
      obtain ⟨hFitsEnd, hOpenEnd⟩ := ih hFitsNext hOthers hRest
      exact ⟨hFitsEnd, hOpenEnd.trans hOpenNext⟩

theorem push_fault {c : Cursor α capacity} {a : α} {f : Fault} (h : c.push a = .error f) :
    f.isOfCursor = true := by
  unfold push at h
  split at h
  · cases h
    rfl
  · split at h
    · contradiction
    · cases h
      rfl

theorem start_fault {c : Cursor α capacity} {a : α} {f : Fault} (h : c.start a = .error f) :
    f.isOfCursor = true := by
  unfold start at h
  split at h
  · cases h
    rfl
  · split at h
    · contradiction
    · cases h
      rfl

theorem close_fault {c : Cursor α capacity} {f : Fault} (h : c.close = .error f) :
    f.isOfCursor = true := by
  unfold close at h
  split at h
  · cases h
    rfl
  · contradiction

theorem modifyOpen_fault {p : α → Prop} {c : Cursor α capacity} {g : α → Except Fault α}
    {f : Fault} (hFits : c.Fits p) (hg : ∀ a, p a → ∃ b, g a = .ok b ∧ p b)
    (h : c.modifyOpen g = .error f) : f.isOfCursor = true := by
  unfold modifyOpen at h
  split at h
  · cases h
    rfl
  · next a ha =>
    obtain ⟨b, hb, _⟩ := hg a (hFits.pending a ha)
    rw [hb] at h
    contradiction

theorem amend_fault {c : Cursor α capacity} {g : α → α} {f : Fault}
    (h : c.amend g = .error f) : f.isOfCursor = true := by
  unfold amend at h
  split at h
  · contradiction
  · contradiction
  · cases h
    rfl

/-- Under the invariant, an edit only ends in a fault of the cursor. -/
theorem apply_fault {p : α → Prop} {c : Cursor α capacity} {edit : Edit α} {f : Fault}
    (hFits : c.Fits p) (hKeeps : edit.Keeps p) (h : (c.apply edit).result = .error f) :
    f.isOfCursor = true := by
  cases edit with
  | note text => contradiction
  | report a => exact push_fault h
  | bracket a =>
      change (c.start a).bind close = .error f at h
      cases hStart : c.start a with
      | error g =>
          rw [hStart] at h
          cases h
          exact start_fault hStart
      | ok opened =>
          rw [hStart] at h
          exact close_fault h
  | amend change => exact amend_fault h
  | place a merge =>
      by_cases hOpen : c.isOpen = true
      · simp only [apply, hOpen, if_true, Outcome.result_ofResult] at h
        exact modifyOpen_fault hFits hKeeps h
      · simp only [apply, hOpen, Outcome.result_ofResult] at h
        exact push_fault h

/-- Under the invariant, edits only end in a fault of the cursor. -/
theorem applyAll_fault {p : α → Prop} {c : Cursor α capacity} {edits : List (Edit α)}
    {f : Fault} (hFits : c.Fits p) (hKeeps : ∀ edit ∈ edits, edit.Keeps p)
    (h : (c.applyAll edits).result = .error f) : f.isOfCursor = true := by
  induction edits generalizing c with
  | nil => contradiction
  | cons edit rest ih =>
      obtain ⟨hFirst, hOthers⟩ := List.forall_mem_cons.mp hKeeps
      rcases Outcome.result_bind_eq_error_iff.mp h with hHead | ⟨next, hNext, hRest⟩
      · exact apply_fault hFits hFirst hHead
      · exact ih (apply_fits hFits hFirst hNext).1 hOthers hRest

end Cursor

end OperandReport
