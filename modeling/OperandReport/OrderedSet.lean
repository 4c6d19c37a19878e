import OperandReport.Fault

/-!
# Small ordered sets

A set with room for a fixed number of members that remembers the order in which
they came.  Implicit registers and instruction groups are kept in such sets.

The view is `items`.  The default value of the member type is a terminator: a
list is taken over only up to its first terminator.
-/

namespace OperandReport

/-- Members in order of insertion. -/
structure OrderedSet (α : Type) (capacity : Nat) where
  items : List α := []
  deriving DecidableEq, Repr, Inhabited

namespace OrderedSet

variable {α : Type} [DecidableEq α] {capacity : Nat}

/-- The set without members. -/
def empty : OrderedSet α capacity := {}

/-- The number of members. -/
def size (s : OrderedSet α capacity) : Nat := s.items.length

/-- There is no member. -/
def isEmpty (s : OrderedSet α capacity) : Bool := s.items.isEmpty

/-- Whether `a` is a member. -/
def contains (s : OrderedSet α capacity) (a : α) : Bool := s.items.contains a

/-- Adds a member at the end, unless it is one already. -/
def insert (s : OrderedSet α capacity) (a : α) : Except Fault (OrderedSet α capacity) :=
  if a ∈ s.items then .ok s
  else if s.items.length < capacity then .ok ⟨s.items ++ [a]⟩
  else .error (.setFull capacity)

/-- Takes a member out; the others keep their order. -/
def erase (s : OrderedSet α capacity) (a : α) : OrderedSet α capacity := ⟨s.items.erase a⟩

/-- Adds the members of a list, up to its first terminator. -/
def ofList [Inhabited α] (xs : List α) : Except Fault (OrderedSet α capacity) :=
  (xs.takeWhile (· ≠ default)).foldlM insert empty

/-- A new member goes to the end. -/
theorem insert_of_not_mem {s : OrderedSet α capacity} {a : α} (h : a ∉ s.items)
    (hl : s.items.length < capacity) : s.insert a = .ok ⟨s.items ++ [a]⟩ := by
  simp [insert, h, hl]

/-- Adding a member again changes nothing. -/
theorem insert_of_mem {s : OrderedSet α capacity} {a : α} (h : a ∈ s.items) :
    s.insert a = .ok s := by
  simp [insert, h]

/-- A full set has no room for a new member. -/
theorem insert_of_full {s : OrderedSet α capacity} {a : α} (h : a ∉ s.items)
    (hl : s.items.length = capacity) : s.insert a = .error (.setFull capacity) := by
  simp [insert, h, hl]

/-- Only a new member can find the set full. -/
theorem insert_eq_error_iff {s : OrderedSet α capacity} {a : α} {f : Fault} :
    s.insert a = .error f ↔ a ∉ s.items ∧ capacity ≤ s.items.length ∧ f = .setFull capacity := by
  unfold insert
  split
  · simp_all
  · split
    · next h => exact ⟨nofun, fun ⟨_, full, _⟩ => absurd h (Nat.not_lt.2 full)⟩
    · simp_all [eq_comm]

theorem mem_of_insert {s t : OrderedSet α capacity} {a x : α} (h : s.insert a = .ok t) :
    x ∈ t.items ↔ x ∈ s.items ∨ x = a := by
  unfold insert at h
  split at h
  · next hm =>
    cases h
    constructor
    · exact Or.inl
    · rintro (hx | rfl)
      · exact hx
      · exact hm
  · split at h
    · cases h; simp
    · simp at h

end OrderedSet

/-- Some entry of `written`, up to its first terminator, is one of `aliases`. -/
def writesAny {α : Type} [DecidableEq α] [Inhabited α] (written aliases : List α) : Bool :=
  (written.takeWhile (· ≠ default)).any (· ∈ aliases)

end OperandReport
