import OperandReport.Footprint

/-!
# Footprints list each register once

Registers are mentioned one after another, and a mention of a register that is listed
already changes nothing.  Folding the mentions of a list is therefore the
deduplication of the list that keeps first occurrences in order; `foldl_mention` says
so for any start.

A summary that records operands by mentioning the registers they read on one side and
those they write on the other is the deduplication of the two sides, each on its own.
`foldl_record` proves this once for every kind of operand.

## Main results

* `Footprint.foldl_mention`: mentioning is deduplication.
* `Footprint.foldl_record`: a summary over operands, side by side.
* `ListsOnce.of_eraseDups`: what a deduplicated list of implicit and explicit
  registers satisfies.
-/

namespace OperandReport

variable {α : Type} [DecidableEq α]

/-- The list has every implicit and every explicit entry exactly once, in the order of
first occurrence, the implicit ones first. -/
structure ListsOnce (implicit explicit listed : List α) : Prop where
  once : listed = (implicit ++ explicit).eraseDups
  nodup : listed.Nodup
  implicitFirst : implicit.eraseDups <+: listed
  exact_iff : ∀ x, x ∈ listed ↔ x ∈ implicit ∨ x ∈ explicit

namespace Footprint

private theorem eraseDups_of_nodup {xs : List α} (h : xs.Nodup) : xs.eraseDups = xs := by
  induction xs with
  | nil => rfl
  | cons x xs ih =>
      obtain ⟨hx, hxs⟩ := List.nodup_cons.mp h
      have hFilter : xs.filter (fun y => !y == x) = xs := by
        rw [List.filter_eq_self]
        intro y hy
        have hNe : y ≠ x := fun hEq => hx (hEq ▸ hy)
        simpa using hNe
      rw [List.eraseDups_cons, hFilter, ih hxs]

/-- Mentioning the entries of a list one after another is deduplication. -/
theorem foldl_mention {listed : List α} (hListed : listed.Nodup) (xs : List α) :
    xs.foldl mention listed = (listed ++ xs).eraseDups := by
  induction xs generalizing listed with
  | nil =>
      rw [List.append_nil, eraseDups_of_nodup hListed]
      rfl
  | cons x xs ih =>
      rw [List.foldl_cons, ih (nodup_mention hListed)]
      by_cases hx : x ∈ listed
      · rw [mention, if_pos hx, List.eraseDups_append, List.eraseDups_append,
          List.cons_removeAll]
        simp [hx]
      · rw [mention, if_neg hx, List.append_assoc, List.singleton_append]

/-- Mentions only ever add to what is listed. -/
theorem length_le_foldl_mention (xs given : List α) :
    xs.length ≤ (given.foldl mention xs).length := by
  induction given generalizing xs with
  | nil => exact Nat.le_refl _
  | cons a rest ih =>
      refine Nat.le_trans ?_ (ih (mention xs a))
      rw [mention]
      split
      · exact Nat.le_refl _
      · exact (List.sublist_append_left xs [a]).length_le

private theorem nodup_foldl_mention {listed : List α} (hListed : listed.Nodup) (xs : List α) :
    (xs.foldl mention listed).Nodup := by
  induction xs generalizing listed with
  | nil => exact hListed
  | cons x xs ih => exact ih (nodup_mention hListed)

theorem nodup_eraseDups (xs : List α) : xs.eraseDups.Nodup := by
  have hFold := foldl_mention (List.nodup_nil (α := α)) xs
  rw [List.nil_append] at hFold
  rw [← hFold]
  exact nodup_foldl_mention List.nodup_nil xs

/-- Mentions the registers read and the registers written, each on its side. -/
def mentionAll (p : Footprint α) (reads writes : List α) : Footprint α :=
  ⟨reads.foldl mention p.reads, writes.foldl mention p.writes⟩

@[simp] theorem mentionAll_mentionAll (p : Footprint α) (reads more writes : List α) :
    (p.mentionAll reads writes).mentionAll more [] = p.mentionAll (reads ++ more) writes := by
  simp [mentionAll]

/-- Recording a register mentions it on the sides that the access names. -/
theorem record_eq (p : Footprint α) (a : α) (access : Access) :
    p.record a access =
      p.mentionAll (if access.read then [a] else []) (if access.write then [a] else []) := by
  rcases access with ⟨_ | _, _ | _⟩ <;> rfl

/-- Recording a base and an index mentions both on one side, and the base on the other
if it is written back. -/
theorem record_base_index (p : Footprint α) (base index : α) (hasBase hasIndex writeback : Bool) :
    (let p := if hasBase then p.record base (if writeback then .both else .reads) else p
      if hasIndex then p.read index else p) =
      p.mentionAll ((if hasBase then [base] else []) ++ (if hasIndex then [index] else []))
        (if hasBase && writeback then [base] else []) := by
  cases hasBase <;> cases hasIndex <;> cases writeback <;> rfl

/-- A summary over operands mentions what all of them read, and what all of them
write. -/
theorem foldl_record {ω : Type} {record : Footprint α → ω → Footprint α}
    {reads writes : ω → List α}
    (hRecord : ∀ p op, record p op = p.mentionAll (reads op) (writes op)) (ops : List ω)
    (p : Footprint α) :
    ops.foldl record p = p.mentionAll (ops.flatMap reads) (ops.flatMap writes) := by
  induction ops generalizing p with
  | nil => rfl
  | cons op ops ih =>
      rw [List.foldl_cons, ih, hRecord]
      simp only [mentionAll, List.flatMap_cons, List.foldl_append]

/-- From the implicit registers on, each side is a deduplication. -/
theorem mentionAll_ofImplicit (implicitReads implicitWrites reads writes : List α) :
    (ofImplicit implicitReads implicitWrites).mentionAll reads writes =
      ⟨(implicitReads ++ reads).eraseDups, (implicitWrites ++ writes).eraseDups⟩ := by
  have hSide : ∀ implicit explicit : List α,
      explicit.foldl mention (implicit.foldl mention []) = (implicit ++ explicit).eraseDups := by
    intro implicit explicit
    rw [← List.foldl_append, foldl_mention List.nodup_nil, List.nil_append]
  simp only [mentionAll, ofImplicit, hSide]

end Footprint

/-- A deduplicated list of implicit and explicit entries lists each of them once. -/
theorem ListsOnce.of_eraseDups (implicit explicit : List α) :
    ListsOnce implicit explicit (implicit ++ explicit).eraseDups where
  once := rfl
  nodup := Footprint.nodup_eraseDups _
  implicitFirst := by
    rw [List.eraseDups_append]
    exact List.prefix_append _ _
  exact_iff := by
    intro x
    rw [List.mem_eraseDups, List.mem_append]

end OperandReport
