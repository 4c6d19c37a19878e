import OperandReport.Fault

/-!
# The operand cursor

Operands are completed one after another, up to a capacity.  A memory operand is
put together from several fields, so it may be opened first, filled in, and
counted as completed only when it is closed; while it is open nothing else can be
added.

The completed operands are kept newest first, next to the open one.  The view is
`toList`, oldest first, and each operation has one lemma about it.  An operation
that breaks a rule gives a fault instead of a new cursor, so the old one stays
what it was.
-/

namespace OperandReport

/-- Completed operands, newest first, and the operand that is open. -/
structure Cursor (α : Type) (capacity : Nat) where
  recent : List α := []
  pending : Option α := none
  deriving DecidableEq, Repr, Inhabited

namespace Cursor

variable {α : Type} {capacity : Nat}

/-- A cursor without operands. -/
def empty : Cursor α capacity := {}

/-- The completed operands, oldest first. -/
def toList (c : Cursor α capacity) : List α := c.recent.reverse

/-- The number of completed operands. -/
def length (c : Cursor α capacity) : Nat := c.recent.length

/-- No operand is completed. -/
def isEmpty (c : Cursor α capacity) : Bool := c.length == 0

/-- An operand is open. -/
def isOpen (c : Cursor α capacity) : Bool := c.pending.isSome

/-- The position of the newest completed operand. -/
def lastIndex? (c : Cursor α capacity) : Option Nat :=
  if c.length = 0 then none else some (c.length - 1)

/-- Completes an operand at once. -/
def push (c : Cursor α capacity) (a : α) : Except Fault (Cursor α capacity) :=
  if c.isOpen then .error .addedWhileOpen
  else if c.length < capacity then .ok { c with recent := a :: c.recent }
  else .error (.operandsFull capacity)

/-- Opens an operand. -/
def start (c : Cursor α capacity) (a : α) : Except Fault (Cursor α capacity) :=
  if c.isOpen then .error .openedTwice
  else if c.length < capacity then .ok { c with pending := some a }
  else .error (.operandsFull capacity)

/-- Changes the open operand; the change itself may be refused. -/
def modifyOpen (c : Cursor α capacity) (f : α → Except Fault α) :
    Except Fault (Cursor α capacity) :=
  match c.pending with
  | none => .error .notOpen
  | some a => (f a).map fun b => { c with pending := some b }

/-- Closes the open operand, which is then completed. -/
def close (c : Cursor α capacity) : Except Fault (Cursor α capacity) :=
  match c.pending with
  | none => .error .notOpen
  | some a => .ok { recent := a :: c.recent, pending := none }

/-- The operand at a distance from the end: `0` is the open one, `-1` the newest
completed one. -/
def get? (c : Cursor α capacity) (offset : Int) : Option α :=
  match offset with
  | .ofNat 0 => c.pending
  | .ofNat (_ + 1) => none
  | .negSucc k => c.recent[k]?

/-- Changes the operand at a distance from the end. -/
def modifyAt (c : Cursor α capacity) (offset : Int) (f : α → α) :
    Except Fault (Cursor α capacity) :=
  match offset, c.pending with
  | .ofNat 0, some a => .ok { c with pending := some (f a) }
  | .negSucc k, _ =>
    if k < c.recent.length then .ok { c with recent := c.recent.modify k f }
    else .error (.operandMissing offset c.length c.isOpen)
  | _, _ => .error (.operandMissing offset c.length c.isOpen)

/-- Changes the newest completed operand, if there is one. -/
def modifyLast (c : Cursor α capacity) (f : α → α) : Cursor α capacity :=
  { c with recent := c.recent.modify 0 f }

/-- Changes the operand that is being worked on: the open one, or else the newest
completed one. -/
def amend (c : Cursor α capacity) (f : α → α) : Except Fault (Cursor α capacity) :=
  match c.pending, c.recent with
  | some a, _ => .ok { c with pending := some (f a) }
  | none, a :: older => .ok { c with recent := f a :: older }
  | none, [] => .error (.operandMissing (-1) 0 false)

@[simp] theorem toList_empty : (empty : Cursor α capacity).toList = [] := rfl

@[simp] theorem length_toList (c : Cursor α capacity) : c.toList.length = c.length := by
  simp [toList, length]

theorem push_eq_ok {c : Cursor α capacity} {a : α} (ho : c.isOpen = false)
    (hl : c.length < capacity) : c.push a = .ok { c with recent := a :: c.recent } := by
  simp [push, ho, hl]

/-- A completed operand goes to the end. -/
theorem toList_of_push {c d : Cursor α capacity} {a : α} (h : c.push a = .ok d) :
    d.toList = c.toList ++ [a] := by
  unfold push at h
  split at h
  · simp at h
  · split at h
    · cases h; simp [toList]
    · simp at h

/-- Opening an operand completes none. -/
theorem toList_of_start {c d : Cursor α capacity} {a : α} (h : c.start a = .ok d) :
    d.toList = c.toList := by
  unfold start at h
  split at h
  · simp at h
  · split at h
    · cases h; rfl
    · simp at h

/-- Closing completes the operand that was open. -/
theorem toList_of_close {c d : Cursor α capacity} (h : c.close = .ok d) :
    ∃ a, c.pending = some a ∧ d.toList = c.toList ++ [a] ∧ d.isOpen = false := by
  unfold close at h
  split at h
  · simp at h
  · next a ha => cases h; exact ⟨a, ha, by simp [toList], rfl⟩

/-- While an operand is open, amending changes no completed one. -/
theorem amend_of_open {c : Cursor α capacity} {a : α} {f : α → α} (h : c.pending = some a) :
    c.amend f = .ok { c with pending := some (f a) } := by
  simp [amend, h]

/-- With nothing open, amending changes the newest completed operand. -/
theorem amend_of_closed {c : Cursor α capacity} {a : α} {older : List α} {f : α → α}
    (h : c.pending = none) (hr : c.recent = a :: older) :
    c.amend f = .ok { c with recent := f a :: older } := by
  simp [amend, h, hr]

end Cursor

end OperandReport
