import OperandReport.Cursor
import OperandReport.Outcome

/-!
# Edits

What a field contributes to the operands is said as a list of edits, before any
cursor is at hand.  `Cursor.apply` carries out one edit and `Cursor.applyAll` a
list of them, first to last, up to the first fault.

Keeping the list apart from the cursor makes two things visible at once: which
fields it was computed from, and that it can touch nothing but the operands.
-/

namespace OperandReport

/-- One contribution to the operands. -/
inductive Edit (α : Type) where
  /-- takes a note -/
  | note (text : String)
  /-- completes an operand -/
  | report (operand : α)
  /-- opens a memory operand and closes it again -/
  | bracket (operand : α)
  /-- changes the operand being worked on -/
  | amend (change : α → α)
  /-- completes an operand, or merges into the one that is open -/
  | place (operand : α) (merge : α → Except Fault α)

namespace Cursor

variable {α : Type} {capacity : Nat}

/-- Carries out one edit. -/
def apply (c : Cursor α capacity) : Edit α → Outcome (Cursor α capacity)
  | .note text => ⟨[text], .ok c⟩
  | .report a => .ofResult (c.push a)
  | .bracket a => .ofResult ((c.start a).bind close)
  | .amend change => .ofResult (c.amend change)
  | .place a merge => .ofResult (if c.isOpen then c.modifyOpen merge else c.push a)

/-- Carries out edits, first to last, up to the first fault. -/
def applyAll (c : Cursor α capacity) : List (Edit α) → Outcome (Cursor α capacity)
  | [] => .ok c
  | edit :: rest => (c.apply edit).bind (applyAll · rest)

/-- A closed memory operand counts as a completed one. -/
theorem start_bind_close {c : Cursor α capacity} {a : α} (h : c.isOpen = false) :
    (c.start a).bind close = c.push a := by
  unfold start push
  split
  · simp_all
  · split
    · rcases c with ⟨recent, pending⟩
      have hp : pending = none := by simpa [isOpen] using h
      subst hp
      rfl
    · rfl

end Cursor

end OperandReport
