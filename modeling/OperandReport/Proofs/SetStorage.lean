import OperandReport.OrderedSet.Storage
import OperandReport.Proofs.Footprint
import OperandReport.Proofs.OrderedSet
import OperandReport.Proofs.Runs

/-!
# Ordered sets are lists without repetitions

What an ordered set is to its callers is the list of its members, oldest first.
`OrderedSet.handleMembers` says what each request does to this list.

The storage of a set keeps the list in its first cells, and every cell behind them is at its
default.  `Storage.Holds` says so cell by cell, so that taking a member out is a matter of where
each cell comes from: the cells before the member stay, those behind it come from one further,
the last one is reset.  A storage is determined by the list that it holds.  So a request that
leaves the list as it was has changed nothing in the storage either, and taking out a member
that has just been added takes the storage back to what it was.

The set that reports are assembled on is the list itself, and answers every request in the same
way.

## Main results

* `OrderedSet.Storage.handle_refines`: one request, to a storage that holds a list.
* `OrderedSet.Storage.insertAll_refines`: taking over a list of members.
* `OrderedSet.after_refines_members`: any request after any run of requests on a set that is
  made of a list.
-/

namespace OperandReport.OrderedSet

/-! ## The layout -/

namespace Storage

open Steps

variable {α : Type} [Inhabited α] {capacity : Nat}

/-- The members are in the first cells, in order, and the cells behind them are at their
default. -/
structure Holds (s : Storage α capacity) (xs : List α) : Prop where
  cells : ∀ i < capacity, s.cells[i]? = some (xs[i]?.getD default)
  count : s.count = xs.length
  fits : xs.length ≤ capacity
  distinct : xs.Nodup

variable {s t : Storage α capacity} {xs : List α}

theorem holds_nil : (empty : Storage α capacity).Holds [] where
  cells i hi := by simp [empty, hi]
  count := rfl
  fits := Nat.zero_le capacity
  distinct := List.nodup_nil

theorem Holds.toList (h : s.Holds xs) : s.toList = xs := by
  refine List.ext_getElem? fun i => ?_
  rw [Storage.toList, List.getElem?_take, h.count, Vector.getElem?_toList]
  split
  · next hi => rw [h.cells i (Nat.lt_of_lt_of_le hi h.fits), List.getElem?_eq_getElem hi]; rfl
  · next hPast => rw [List.getElem?_eq_none (Nat.le_of_not_lt hPast)]

/-- A storage is determined by the list that it holds. -/
theorem Holds.eq (h : s.Holds xs) (hOther : t.Holds xs) : s = t := by
  have hCells : s.cells = t.cells := by
    refine Vector.ext fun i hi => ?_
    have hSame : s.cells[i]? = t.cells[i]? := (h.cells i hi).trans (hOther.cells i hi).symm
    rwa [Vector.getElem?_eq_getElem hi, Vector.getElem?_eq_getElem hi, Option.some_inj] at hSame
  have hCount : s.count = t.count := h.count.trans hOther.count.symm
  cases s
  cases t
  congr

omit [Inhabited α] in
theorem carryOut_writeCell {i : Nat} (hi : i < capacity) (a : α) :
    carryOut (writeCell i a) s = (.ok (), { s with cells := s.cells.set i a }) := by
  simp [writeCell, Cells.change_eq_ok hi, Except.map]

/-- A new member goes to the cell behind the others. -/
theorem Holds.append (h : s.Holds xs) {a : α} (hNew : a ∉ xs) (hCell : s.count < capacity) :
    Holds { s with cells := s.cells.set s.count a, count := s.count + 1 } (xs ++ [a]) where
  cells i hi := by
    rw [Vector.getElem?_set, h.cells i hi, h.count, List.getElem?_append]
    split
    · next hLast => simp [hLast]
    · next hElsewhere =>
      split
      · rfl
      · next hPast =>
        have hBehind : [a][i - xs.length]? = none := List.getElem?_eq_none (by simp; omega)
        rw [hBehind, List.getElem?_eq_none (Nat.le_of_not_lt hPast)]
  count := by simp [h.count]
  fits := by
    rw [List.length_append, ← h.count]
    exact hCell
  distinct := by
    rw [(List.perm_append_singleton a xs).nodup_iff]
    exact List.nodup_cons.mpr ⟨hNew, h.distinct⟩

/-- Moving the members behind a place one cell forward, and resetting the cell that is left
over, takes out the member at this place. -/
theorem Holds.eraseIdx (h : s.Holds xs) {i : Nat} (hi : i < xs.length) :
    ∃ moved, s.cells.move (i + 1) s.count i = .ok moved ∧
      ∃ hCell : s.count - 1 < capacity,
        Holds ⟨moved.set (s.count - 1) default, s.count - 1⟩ (xs.eraseIdx i) := by
  have hCount := h.count
  have hFits := h.fits
  have hRange : i + 1 ≤ s.count := by omega
  have hStop : s.count ≤ capacity := by omega
  have hTarget : i + (s.count - (i + 1)) ≤ capacity := by omega
  obtain ⟨moved, hMoved, hFrom⟩ := Cells.move_eq_ok s.cells hRange hStop hTarget
  have hCell : s.count - 1 < capacity := by omega
  refine ⟨moved, hMoved, hCell, ?_, ?_, ?_, h.distinct.eraseIdx i⟩
  · intro j hj
    rw [Vector.getElem?_set, hFrom j, List.getElem?_eraseIdx]
    -- A cell before the member stays; the others are read one cell further, as long as there is
    -- a member there.
    by_cases hBefore : j < i
    · rw [if_neg (by omega), if_neg (by omega), if_pos hBefore]
      exact h.cells j hj
    · rw [if_neg hBefore]
      by_cases hMember : j + 1 < xs.length
      · rw [if_neg (by omega), if_pos (by omega), show i + 1 + (j - i) = j + 1 by omega]
        exact h.cells (j + 1) (by omega)
      · rw [List.getElem?_eq_none (Nat.le_of_not_lt hMember)]
        split
        · rfl
        · rw [if_neg (by omega), h.cells j hj, List.getElem?_eq_none (by omega)]
  · simp [List.length_eraseIdx, hi, h.count]
  · exact Nat.le_trans (List.length_eraseIdx_le xs i) h.fits

end Storage

/-! ## Lists without repetitions -/

variable {α : Type} [DecidableEq α] {capacity : Nat}

/-- What a request does to a list of distinct members that is limited to a capacity. -/
def handleMembers (capacity : Nat) (xs : List α) : Request α → Except Refusal Bool × List α
  | .insert a =>
    if a ∈ xs then (.ok false, xs)
    else if xs.length = capacity then (.error (.fault (.setFull capacity)), xs)
    else (.ok true, xs ++ [a])
  | .erase a => (.ok (decide (a ∈ xs)), xs.filter (· ≠ a))
  | .contains a => (.ok (decide (a ∈ xs)), xs)

section

variable {xs : List α} {a : α}

theorem handleMembers_insert_of_mem (hMem : a ∈ xs) :
    handleMembers capacity xs (.insert a) = (.ok false, xs) := by
  simp [handleMembers, hMem]

theorem handleMembers_insert_of_full (hNew : a ∉ xs) (hFull : xs.length = capacity) :
    handleMembers capacity xs (.insert a) = (.error (.fault (.setFull capacity)), xs) := by
  simp [handleMembers, hNew, hFull]

theorem handleMembers_insert_of_room (hNew : a ∉ xs) (hRoom : xs.length ≠ capacity) :
    handleMembers capacity xs (.insert a) = (.ok true, xs ++ [a]) := by
  simp [handleMembers, hNew, hRoom]

/-- Only a new member is refused, and only by a full list. -/
theorem handleMembers_error_iff {request : Request α} :
    (∃ refusal, (handleMembers capacity xs request).1 = .error refusal) ↔
      ∃ a, request = .insert a ∧ a ∉ xs ∧ xs.length = capacity := by
  cases request with
  | insert a =>
      by_cases hMem : a ∈ xs
      · simp [handleMembers, hMem]
      · by_cases hFull : xs.length = capacity <;> simp [handleMembers, hMem, hFull]
  | erase a | contains a => simp [handleMembers]

/-- A request that is refused leaves the list as it was. -/
theorem handleMembers_of_error {request : Request α} {refusal : Refusal}
    (h : (handleMembers capacity xs request).1 = .error refusal) :
    (handleMembers capacity xs request).2 = xs := by
  obtain ⟨a, rfl, hNew, hFull⟩ := handleMembers_error_iff.mp ⟨refusal, h⟩
  rw [handleMembers_insert_of_full hNew hFull]

/-- A member that is added is new, and goes to the end. -/
theorem handleMembers_of_added (h : (handleMembers capacity xs (.insert a)).1 = .ok true) :
    a ∉ xs ∧ handleMembers capacity xs (.insert a) = (.ok true, xs ++ [a]) := by
  by_cases hMem : a ∈ xs
  · simp [handleMembers_insert_of_mem hMem] at h
  · by_cases hFull : xs.length = capacity
    · simp [handleMembers_insert_of_full hMem hFull] at h
    · exact ⟨hMem, handleMembers_insert_of_room hMem hFull⟩

/-- Taking out a member that has just been added leaves the list as it was. -/
theorem handleMembers_erase_append (hNew : a ∉ xs) :
    handleMembers capacity (xs ++ [a]) (.erase a) = (.ok true, xs) := by
  have hOthers : xs.filter (· ≠ a) = xs := by
    refine List.filter_eq_self.mpr fun x hx => ?_
    simpa using fun hSame : x = a => hNew (hSame ▸ hx)
  rw [handleMembers, List.filter_append, hOthers]
  simp

/-- Among distinct members, taking out the first place of a member takes out the member. -/
theorem filter_ne_eq_erase (hDistinct : xs.Nodup) (a : α) : xs.filter (· ≠ a) = xs.erase a := by
  rw [hDistinct.erase_eq_filter a]
  refine List.filter_congr fun x _ => ?_
  rw [Bool.eq_iff_iff]
  simp

end

/-! ## Requests -/

namespace Storage

open Steps

variable [Inhabited α] {s t : Storage α capacity} {xs : List α} {request : Request α}

/-- Handling the request does what it does to the list. -/
structure Refines (s : Storage α capacity) (xs : List α) (request : Request α) : Prop where
  answer : (s.handle request).1 = (handleMembers capacity xs request).1
  holds : (s.handle request).2.Holds (handleMembers capacity xs request).2

theorem Holds.contains (h : s.Holds xs) (a : α) : s.contains a = decide (a ∈ xs) := by
  rw [Storage.contains, h.toList, List.contains_eq_mem]

theorem Refines.of_eq {answer : Except Refusal Bool} {ys : List α}
    (hHandle : s.handle request = (answer, t))
    (hList : handleMembers capacity xs request = (answer, ys)) (hHolds : t.Holds ys) :
    s.Refines xs request where
  answer := by rw [hHandle, hList]
  holds := by rw [hHandle, hList]; exact hHolds

theorem insert_refines (h : s.Holds xs) (a : α) : s.Refines xs (.insert a) := by
  by_cases hMem : a ∈ xs
  · refine .of_eq ?_ (handleMembers_insert_of_mem hMem) h
    simp [handle, respond, insert, h.contains, hMem]
  · by_cases hFull : xs.length = capacity
    · refine .of_eq ?_ (handleMembers_insert_of_full hMem hFull) h
      simp [handle, respond, insert, h.contains, hMem, h.count, hFull]
    · have hCell : s.count < capacity := by
        rw [h.count]
        exact Nat.lt_of_le_of_ne h.fits hFull
      refine .of_eq ?_ (handleMembers_insert_of_room hMem hFull) (h.append hMem hCell)
      simp [handle, respond, insert, h.contains, hMem, Nat.not_le.mpr hCell,
        carryOut_writeCell hCell]

theorem erase_refines (h : s.Holds xs) (a : α) : s.Refines xs (.erase a) := by
  have hList : handleMembers capacity xs (.erase a) = (.ok (decide (a ∈ xs)), xs.erase a) := by
    rw [handleMembers, filter_ne_eq_erase h.distinct]
  cases hPlace : xs.idxOf? a with
  | none =>
      have hMem : a ∉ xs := List.idxOf?_eq_none_iff.mp hPlace
      rw [List.erase_of_not_mem hMem] at hList
      refine .of_eq ?_ hList h
      simp [handle, respond, erase, h.toList, hPlace, hMem]
  | some i =>
      obtain ⟨hi, hHere, -⟩ := List.idxOf?_eq_some_iff.mp hPlace
      have hMem : a ∈ xs := hHere ▸ List.getElem_mem hi
      obtain ⟨moved, hMoved, hCell, hHolds⟩ := h.eraseIdx hi
      rw [List.erase_eq_eraseIdx, hPlace] at hList
      refine .of_eq ?_ hList hHolds
      simp [handle, respond, erase, h.toList, hPlace, hMem, moveCells, hMoved, Except.map,
        carryOut_writeCell hCell]

theorem contains_refines (h : s.Holds xs) (a : α) : s.Refines xs (.contains a) := by
  refine .of_eq ?_ rfl h
  simp [handle, respond, h.contains]

/-- A storage that holds a list handles every request as the list does. -/
theorem handle_refines (h : s.Holds xs) (request : Request α) : s.Refines xs request := by
  cases request with
  | insert a => exact insert_refines h a
  | erase a => exact erase_refines h a
  | contains a => exact contains_refines h a

/-- A request that leaves the list as it was changes nothing. -/
theorem handle_eq_self (h : s.Holds xs) (hSame : (handleMembers capacity xs request).2 = xs) :
    (s.handle request).2 = s :=
  Holds.eq (hSame ▸ (handle_refines h request).holds) h

/-- A request that is refused changes nothing. -/
theorem handle_of_error (h : s.Holds xs) {refusal : Refusal}
    (hRefused : (s.handle request).1 = .error refusal) : (s.handle request).2 = s := by
  rw [(handle_refines h request).answer] at hRefused
  exact handle_eq_self h (handleMembers_of_error hRefused)

/-- Taking out a member that has just been added takes the storage back to what it was. -/
theorem handle_erase_insert (h : s.Holds xs) {a : α}
    (hAdded : (s.handle (.insert a)).1 = .ok true) :
    (s.handle (.insert a)).2.handle (.erase a) = (.ok true, s) := by
  have hInsert := insert_refines h a
  obtain ⟨hNew, hList⟩ := handleMembers_of_added (hInsert.answer ▸ hAdded)
  have hLonger : (s.handle (.insert a)).2.Holds (xs ++ [a]) := by
    simpa only [hList] using hInsert.holds
  obtain ⟨hAnswer, hHolds⟩ := erase_refines hLonger a
  rw [handleMembers_erase_append hNew] at hAnswer hHolds
  exact Prod.ext hAnswer (Holds.eq hHolds h)

theorem carryOut_insertAll_cons (a : α) (rest : List α) :
    carryOut (insertAll (a :: rest)) s =
      match s.handle (.insert a) with
      | (.ok _, t) => carryOut (insertAll rest) t
      | (.error refusal, t) => (.error refusal, t) := by
  have hInsert : carryOut (insert a) s = s.handle (.insert a) := rfl
  rw [insertAll, carryOut_bind, hInsert]
  rcases s.handle (.insert a) with ⟨_ | _, t⟩ <;> rfl

/-- Taking over a list finds the set full just when the list has too many members for it. -/
theorem insertAll_refines (h : s.Holds xs) (given : List α) :
    (capacity < (given.foldl Footprint.mention xs).length ∧
        (∃ t, carryOut (insertAll given) s = (.error (.fault (.setFull capacity)), t)) ∧
        given.foldlM OrderedSet.insert (⟨xs⟩ : OrderedSet α capacity) =
          .error (.setFull capacity)) ∨
      ((given.foldl Footprint.mention xs).length ≤ capacity ∧
        (∃ t, carryOut (insertAll given) s = (.ok (), t) ∧
          t.Holds (given.foldl Footprint.mention xs)) ∧
        given.foldlM OrderedSet.insert (⟨xs⟩ : OrderedSet α capacity) =
          .ok ⟨given.foldl Footprint.mention xs⟩) := by
  -- Once the set is full at a new member the members are already too many, and later entries
  -- only add to them.
  induction given generalizing s xs with
  | nil => exact .inr ⟨h.fits, ⟨s, rfl, h⟩, rfl⟩
  | cons a rest ih =>
      obtain ⟨hAnswer, hHolds⟩ := insert_refines h a
      rw [List.foldl_cons, List.foldlM_cons, carryOut_insertAll_cons]
      generalize s.handle (.insert a) = next at hAnswer hHolds
      obtain ⟨answer, t⟩ := next
      by_cases hMem : a ∈ xs
      · rw [handleMembers_insert_of_mem hMem] at hAnswer hHolds
        cases hAnswer
        rw [insert_of_mem (s := ⟨xs⟩) hMem, Footprint.mention, if_pos hMem]
        exact ih hHolds
      · by_cases hFull : xs.length = capacity
        · rw [handleMembers_insert_of_full hMem hFull] at hAnswer
          cases hAnswer
          have hLonger := Footprint.length_le_foldl_mention (xs ++ [a]) rest
          refine .inl ⟨?_, ⟨t, rfl⟩, ?_⟩
          · rw [Footprint.mention, if_neg hMem]
            simp only [List.length_append, List.length_singleton, hFull] at hLonger
            omega
          · rw [insert_of_full (s := ⟨xs⟩) hMem hFull]
            rfl
        · rw [handleMembers_insert_of_room hMem hFull] at hAnswer hHolds
          cases hAnswer
          rw [insert_of_not_mem (s := ⟨xs⟩) hMem (Nat.lt_of_le_of_ne h.fits hFull),
            Footprint.mention, if_neg hMem]
          exact ih hHolds

/-- A set is made of a list that does not have too many members before its terminator. -/
theorem ofList_refines (given : List α) :
    let members := (given.takeWhile (· ≠ default)).eraseDups
    (capacity < members.length ∧
        (ofList given : Except Refusal (Storage α capacity)) = .error (.fault (.setFull capacity)) ∧
        (OrderedSet.ofList given : Except Fault (OrderedSet α capacity)) =
          .error (.setFull capacity)) ∨
      (members.length ≤ capacity ∧
        (∃ start : Storage α capacity, ofList given = .ok start ∧ start.Holds members) ∧
        (OrderedSet.ofList given : Except Fault (OrderedSet α capacity)) = .ok ⟨members⟩) := by
  have hMembers := Footprint.foldl_mention List.nodup_nil (given.takeWhile (· ≠ default))
  rw [List.nil_append] at hMembers
  rw [← hMembers]
  have hStart : (empty : Storage α capacity).Holds [] := holds_nil
  rcases insertAll_refines hStart (given.takeWhile (· ≠ default)) with
    ⟨hMany, ⟨t, hStorage⟩, hSet⟩ | ⟨hFew, ⟨t, hStorage, hHolds⟩, hSet⟩
  · refine .inl ⟨hMany, ?_, hSet⟩
    rw [ofList, hStorage]
    rfl
  · refine .inr ⟨hFew, ⟨t, ?_, hHolds⟩, hSet⟩
    rw [ofList, hStorage]
    rfl

end Storage

/-! ## The set of a report -/

/-- A set that fits handles every request as the list of its members does. -/
theorem handle_items {set : OrderedSet α capacity} (hFits : set.items.length ≤ capacity)
    (hDistinct : set.items.Nodup) (request : Request α) :
    ((set.handle request).1, (set.handle request).2.items) =
      handleMembers capacity set.items request := by
  cases request with
  | insert a =>
      by_cases hMem : a ∈ set.items
      · rw [handleMembers_insert_of_mem hMem]
        simp [handle, insert_of_mem hMem, contains, hMem]
      · by_cases hFull : set.items.length = capacity
        · rw [handleMembers_insert_of_full hMem hFull]
          simp [handle, insert_of_full hMem hFull]
        · have hRoom := Nat.lt_of_le_of_ne hFits hFull
          rw [handleMembers_insert_of_room hMem hFull]
          simp [handle, insert_of_not_mem hMem hRoom, contains, hMem]
  | erase a =>
      rw [handleMembers, filter_ne_eq_erase hDistinct]
      simp [handle, contains, erase]
  | contains a => simp [handle, contains, handleMembers]

/-- A set that is made of a list holds the first occurrences of its entries before the
terminator, in order, and none can be made just when these are too many.  After any run of
requests the storage holds the list that the requests make of it, without repetitions and within
the capacity, and so does the set of a report.  Both answer the next request as the list does.
Only a new member is refused, by a full set.  A request that is refused, or leaves the list as it
was, changes nothing in the storage, and taking out a member that has just been added takes the
storage back to what it was. -/
theorem after_refines_members [Inhabited α] (capacity : Nat) (given : List α)
    (history : List (Request α)) (request : Request α) :
    let members := (given.takeWhile (· ≠ default)).eraseDups
    (capacity < members.length ∧
        (Storage.ofList given : Except Refusal (Storage α capacity)) =
          .error (.fault (.setFull capacity)) ∧
        (ofList given : Except Fault (OrderedSet α capacity)) = .error (.setFull capacity)) ∨
      (members.length ≤ capacity ∧
        ∃ (start : Storage α capacity) (startSet : OrderedSet α capacity),
          Storage.ofList given = .ok start ∧ ofList given = .ok startSet ∧
          start.toList = members ∧ startSet.items = members ∧
          let s := after Storage.handle start history
          let set := after handle startSet history
          let xs := after (handleMembers capacity) members history
          (s.toList = xs ∧ s.count = xs.length ∧ xs.Nodup ∧ xs.length ≤ capacity) ∧
            (s.handle request).1 = (handleMembers capacity xs request).1 ∧
            ((∃ refusal, (s.handle request).1 = .error refusal) ↔
              ∃ a, request = .insert a ∧ a ∉ xs ∧ xs.length = capacity) ∧
            (∀ refusal, (s.handle request).1 = .error refusal → (s.handle request).2 = s) ∧
            ((handleMembers capacity xs request).2 = xs → (s.handle request).2 = s) ∧
            (∀ a, (s.handle (.insert a)).1 = .ok true →
              (s.handle (.insert a)).2.handle (.erase a) = (.ok true, s)) ∧
            set.items = xs ∧ (set.handle request).1 = (handleMembers capacity xs request).1) := by
  intro members
  rcases Storage.ofList_refines given with hMany | ⟨hFew, ⟨start, hStart, hMembers⟩, hStartSet⟩
  · exact .inl hMany
  · refine .inr ⟨hFew, start, ⟨members⟩, hStart, hStartSet, hMembers.toList, rfl, ?_⟩
    intro s set xs
    have hHolds : s.Holds xs :=
      after_related Storage.Holds (fun _ _ i h => (Storage.handle_refines h i).holds)
        hMembers history
    have hSet : s.Holds set.items := by
      refine after_related (fun s (set : OrderedSet α capacity) => Storage.Holds s set.items)
        (fun s set i h => ?_) hMembers history
      have hItems : (set.handle i).2.items = (handleMembers capacity set.items i).2 :=
        congrArg Prod.snd (handle_items h.fits h.distinct i)
      rw [hItems]
      exact (Storage.handle_refines h i).holds
    have hItems : set.items = xs := hSet.toList.symm.trans hHolds.toList
    have hAnswer := (Storage.handle_refines hHolds request).answer
    refine ⟨⟨hHolds.toList, hHolds.count, hHolds.distinct, hHolds.fits⟩, hAnswer, ?_,
      fun _ => Storage.handle_of_error hHolds, Storage.handle_eq_self hHolds,
      fun _ => Storage.handle_erase_insert hHolds, hItems, ?_⟩
    · rw [hAnswer]
      exact handleMembers_error_iff
    · rw [← hItems]
      exact congrArg Prod.fst (handle_items hSet.fits hSet.distinct request)

end OperandReport.OrderedSet
