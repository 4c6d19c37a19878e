import OperandReport.Footprint
import OperandReport.OrderedSet
import OperandReport.Outcome

/-!
# Sets that stay within their candidates

A set that is `Within` a list of candidates has distinct members, each of them a
candidate, and never the terminator.  Distinct members of a list are no more than
the list is long, so a set with room for all candidates takes every one of them: it
is never found full.

What the members are is said by a list: adding mentions the new member, and a list of
distinct entries is taken over as it is.

## Main results

* `OrderedSet.insert_within`: adding a candidate succeeds and stays within them.
* `OrderedSet.ofList_within`: so does taking over a list of candidates.
* `OrderedSet.items_of_insert`, `OrderedSet.items_of_ofList`: the members, in order.
-/

namespace OperandReport.OrderedSet

variable {α : Type} [DecidableEq α] [Inhabited α] {capacity : Nat}

/-- The members are distinct candidates, and none is the terminator. -/
structure Within (candidates : List α) (s : OrderedSet α capacity) : Prop where
  nodup : s.items.Nodup
  subset : s.items ⊆ candidates
  noTerminator : default ∉ s.items

omit [DecidableEq α] in
theorem within_empty (candidates : List α) : (empty : OrderedSet α capacity).Within candidates where
  nodup := List.nodup_nil
  subset := List.nil_subset candidates
  noTerminator := List.not_mem_nil

omit [DecidableEq α] in
/-- More candidates do no harm. -/
theorem Within.mono {candidates more : List α} {s : OrderedSet α capacity}
    (hs : s.Within candidates) (hMore : candidates ⊆ more) : s.Within more where
  nodup := hs.nodup
  subset := List.Subset.trans hs.subset hMore
  noTerminator := hs.noTerminator

/-- A candidate is taken in while there is room for all of them. -/
theorem insert_within {candidates : List α} {s : OrderedSet α capacity} {a : α}
    (hs : s.Within candidates) (ha : a ∈ candidates) (hDefault : a ≠ default)
    (hRoom : candidates.length ≤ capacity) :
    ∃ t, s.insert a = .ok t ∧ t.Within candidates := by
  by_cases hMem : a ∈ s.items
  · exact ⟨s, insert_of_mem hMem, hs⟩
  · have hNodup : (a :: s.items).Nodup := List.nodup_cons.mpr ⟨hMem, hs.nodup⟩
    have hSubset : a :: s.items ⊆ candidates := List.cons_subset.mpr ⟨ha, hs.subset⟩
    have hCount : s.items.length + 1 ≤ candidates.length :=
      hNodup.length_le_of_subset hSubset
    refine ⟨⟨s.items ++ [a]⟩, insert_of_not_mem hMem (by omega), ?_, ?_, ?_⟩
    · exact (List.perm_append_singleton a s.items).nodup_iff.mpr hNodup
    · intro x hx
      rcases List.mem_append.mp hx with hOld | hNew
      · exact hs.subset hOld
      · rw [List.mem_singleton.mp hNew]
        exact ha
    · intro hBad
      rcases List.mem_append.mp hBad with hOld | hNew
      · exact hs.noTerminator hOld
      · exact hDefault (List.mem_singleton.mp hNew).symm

/-- Taking a member out leaves the others within the candidates. -/
theorem erase_within {candidates : List α} {s : OrderedSet α capacity} (hs : s.Within candidates)
    (a : α) : (s.erase a).Within candidates where
  nodup := hs.nodup.erase a
  subset := fun _ hx => hs.subset (List.mem_of_mem_erase hx)
  noTerminator := fun hBad => hs.noTerminator (List.mem_of_mem_erase hBad)

private theorem foldlM_insert_within {candidates xs : List α} {s : OrderedSet α capacity}
    (hs : s.Within candidates) (hxs : ∀ x ∈ xs, x ∈ candidates ∧ x ≠ default)
    (hRoom : candidates.length ≤ capacity) :
    ∃ t, xs.foldlM insert s = .ok t ∧ t.Within candidates := by
  induction xs generalizing s with
  | nil => exact ⟨s, rfl, hs⟩
  | cons x xs ih =>
      obtain ⟨⟨hx, hDefault⟩, hRest⟩ := List.forall_mem_cons.mp hxs
      obtain ⟨t, hInsert, ht⟩ := insert_within hs hx hDefault hRoom
      obtain ⟨u, hFold, hu⟩ := ih ht hRest
      refine ⟨u, ?_, hu⟩
      rw [List.foldlM_cons, hInsert]
      exact hFold

/-- A list of candidates is taken over, up to its terminator. -/
theorem ofList_within {candidates xs : List α} (hxs : xs ⊆ candidates)
    (hRoom : candidates.length ≤ capacity) :
    ∃ s : OrderedSet α capacity, ofList xs = .ok s ∧ s.Within candidates := by
  refine foldlM_insert_within (within_empty candidates) ?_ hRoom
  intro x hx
  have hBefore := List.all_eq_true.mp (List.all_takeWhile (l := xs)) x hx
  have hList : x ∈ xs := (List.takeWhile_prefix _).subset hx
  exact ⟨hxs hList, by simpa using hBefore⟩

omit [Inhabited α] in
/-- Adding a member mentions it. -/
theorem items_of_insert {s t : OrderedSet α capacity} {a : α} (h : s.insert a = .ok t) :
    t.items = Footprint.mention s.items a := by
  unfold insert at h
  unfold Footprint.mention
  split at h
  · next hMem =>
    cases h
    rw [if_pos hMem]
  · next hMem =>
    split at h
    · cases h
      rw [if_neg hMem]
    · contradiction

omit [Inhabited α] in
/-- What is made of a set with a further member is made of one that mentions it. -/
theorem bind_insert_eq_ok {β : Type} {s : OrderedSet α capacity} {a : α}
    {f : OrderedSet α capacity → β} {b : β} (h : (s.insert a >>= fun t => pure (f t)) = .ok b) :
    ∃ t, t.items = Footprint.mention s.items a ∧ b = f t := by
  obtain ⟨t, hInsert, hMade⟩ := bind_eq_ok_iff.mp h
  cases hMade
  exact ⟨t, items_of_insert hInsert, rfl⟩

omit [Inhabited α] in
private theorem items_of_foldlM_insert {xs : List α} {s t : OrderedSet α capacity}
    (hDistinct : (s.items ++ xs).Nodup) (h : xs.foldlM insert s = .ok t) :
    t.items = s.items ++ xs := by
  induction xs generalizing s with
  | nil =>
      cases h
      rw [List.append_nil]
  | cons x xs ih =>
      have hNew : x ∉ s.items := by
        intro hMem
        exact (List.nodup_append.mp hDistinct).2.2 x hMem x List.mem_cons_self rfl
      rw [List.foldlM_cons] at h
      obtain ⟨next, hInsert, hRest⟩ := bind_eq_ok_iff.mp h
      have hNext : next.items = s.items ++ [x] := by
        rw [items_of_insert hInsert, Footprint.mention, if_neg hNew]
      have hSplit : next.items ++ xs = s.items ++ x :: xs := by simp [hNext]
      rw [ih (hSplit ▸ hDistinct) hRest, hSplit]

/-- A list without a terminator ends at its end. -/
theorem takeWhile_of_not_mem {xs : List α} (hDefault : default ∉ xs) :
    xs.takeWhile (· ≠ default) = xs := by
  have hEach : ∀ x ∈ xs, decide (x ≠ default) = true := by
    intro x hx
    have hNe : x ≠ default := fun hEq => hDefault (hEq ▸ hx)
    simpa using hNe
  have hAll : (xs ++ []).takeWhile (· ≠ default) = xs ++ [].takeWhile (· ≠ default) :=
    List.takeWhile_append_of_pos hEach
  simpa using hAll

/-- Distinct entries without a terminator are taken over as they are. -/
theorem items_of_ofList {xs : List α} {s : OrderedSet α capacity} (hDistinct : xs.Nodup)
    (hDefault : default ∉ xs) (h : ofList xs = .ok s) : s.items = xs := by
  rw [ofList, takeWhile_of_not_mem hDefault] at h
  have hItems := items_of_foldlM_insert (s := empty) hDistinct h
  simpa [empty] using hItems

end OperandReport.OrderedSet

namespace OperandReport

/-- Without a terminator the scan looks at every entry. -/
theorem writesAny_eq_any {α : Type} [DecidableEq α] [Inhabited α] {written aliases : List α}
    (h : default ∉ written) : writesAny written aliases = written.any (· ∈ aliases) := by
  rw [writesAny, OrderedSet.takeWhile_of_not_mem h]

end OperandReport
