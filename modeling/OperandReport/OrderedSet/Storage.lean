import OperandReport.OrderedSet.Request

/-!
# Ordered set storage

An ordered set as it is laid out: a fixed row of cells and the number of members.  The members
are the first cells, in order of insertion.

Taking a member out moves the members behind it one cell forward, all at once, and resets the
cell that is left over.
-/

namespace OperandReport.OrderedSet

/-- A row of cells that holds an ordered set. -/
structure Storage (α : Type) (capacity : Nat) where
  cells : Cells α capacity
  /-- the number of members -/
  count : Nat := 0

namespace Storage

variable {α : Type} [DecidableEq α] [Inhabited α] {capacity : Nat}

/-- A storage without members. -/
def empty : Storage α capacity where
  cells := Vector.replicate capacity default

/-- The members, in order of insertion. -/
def toList (s : Storage α capacity) : List α := s.cells.toList.take s.count

/-- Whether `a` is a member. -/
def contains (s : Storage α capacity) (a : α) : Bool := s.toList.contains a

/-- Writes a cell. -/
def writeCell (i : Nat) (a : α) : Steps (Storage α capacity) Unit :=
  .replace fun s => (s.cells.change i fun _ => a).map ({ s with cells := · })

/-- Copies the cells from `start` up to `stop` to the cells from `target` on. -/
def moveCells (start stop target : Nat) : Steps (Storage α capacity) Unit :=
  .replace fun s => (s.cells.move start stop target).map ({ s with cells := · })

/-- Adds a member at the end, unless it is one already, and says whether it was added. -/
def insert (a : α) : Steps (Storage α capacity) Bool := do
  let s ← get
  if s.contains a then return false
  if capacity ≤ s.count then throw (.fault (.setFull capacity))
  writeCell s.count a
  modify fun s => { s with count := s.count + 1 }
  return true

/-- Takes a member out, and says whether it was there. -/
def erase (a : α) : Steps (Storage α capacity) Bool := do
  let s ← get
  match s.toList.idxOf? a with
  | none => return false
  | some i =>
    moveCells (i + 1) s.count i
    modify fun s => { s with count := s.count - 1 }
    writeCell (s.count - 1) default
    return true

/-- Adds several members, first to last. -/
def insertAll : List α → Steps (Storage α capacity) Unit
  | [] => return
  | a :: rest => do
    let _ ← insert a
    insertAll rest

/-- Adds the members of a list, up to its first terminator. -/
def ofList (xs : List α) : Except Refusal (Storage α capacity) :=
  let (result, s) := (insertAll (xs.takeWhile (· ≠ default))).carryOut empty
  result.map fun _ => s

/-- The steps of a request. -/
def respond : Request α → Steps (Storage α capacity) Bool
  | .insert a => insert a
  | .erase a => erase a
  | .contains a => do return (← get).contains a

/-- Handles a request. -/
def handle (s : Storage α capacity) (request : Request α) :
    Except Refusal Bool × Storage α capacity :=
  (respond request).carryOut s

end Storage

end OperandReport.OrderedSet
