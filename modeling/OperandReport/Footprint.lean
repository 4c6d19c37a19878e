import OperandReport.Access

/-!
# Footprints

The registers that an instruction reads and those that it writes, each list
without duplicates and in the order of first mention.
-/

namespace OperandReport

/-- Registers read and registers written. -/
structure Footprint (α : Type) where
  reads : List α := []
  writes : List α := []
  deriving DecidableEq, Repr, Inhabited

namespace Footprint

variable {α β : Type} [DecidableEq α]

/-- Adds an entry at the end of a list, unless it is there already. -/
def mention (xs : List α) (a : α) : List α := if a ∈ xs then xs else xs ++ [a]

/-- Records a read. -/
def read (p : Footprint α) (a : α) : Footprint α := { p with reads := mention p.reads a }

/-- Records a write. -/
def write (p : Footprint α) (a : α) : Footprint α := { p with writes := mention p.writes a }

/-- Records a register on the sides that an access names. -/
def record (p : Footprint α) (a : α) (access : Access) : Footprint α where
  reads := if access.read then mention p.reads a else p.reads
  writes := if access.write then mention p.writes a else p.writes

/-- The footprint of the implicit registers alone. -/
def ofImplicit (reads writes : List α) : Footprint α where
  reads := reads.foldl mention []
  writes := writes.foldl mention []

/-- Renames every register. -/
def map (f : α → β) (p : Footprint α) : Footprint β := ⟨p.reads.map f, p.writes.map f⟩

theorem mem_mention {xs : List α} {a x : α} : x ∈ mention xs a ↔ x ∈ xs ∨ x = a := by
  unfold mention
  split
  · constructor
    · exact Or.inl
    · rintro (hx | rfl) <;> assumption
  · simp

theorem nodup_mention {xs : List α} {a : α} (h : xs.Nodup) : (mention xs a).Nodup := by
  unfold mention
  split
  · exact h
  · next ha =>
    rw [List.nodup_append]
    refine ⟨h, by simp, ?_⟩
    intro x hx y hy
    rw [List.mem_singleton.mp hy]
    rintro rfl
    exact ha hx

end Footprint

end OperandReport
