import OperandReport.Container
import OperandReport.Journal

/-!
# The journal ring

A bounded journal in a fixed row of cells.  A new line goes to the cell that `next` points at,
and `next` moves one cell on, around the end to the first cell.  Once all cells are taken, that
is the cell of the oldest line; reading starts there and wraps around once.

Clearing starts over at the first cell.  The cells keep their lines, which are no longer counted.

The view is `lines`, oldest first.
-/

namespace OperandReport

/-- A bounded journal that forgets its oldest lines. -/
structure Ring (capacity : Nat) where
  cells : Cells Line capacity := Vector.replicate capacity {}
  /-- the cell that the next line goes to -/
  next : Nat := 0
  /-- the number of lines held -/
  count : Nat := 0
  deriving DecidableEq, Repr

namespace Ring

variable {capacity : Nat}

/-- A journal without lines. -/
def empty : Ring capacity := {}

/-- Writes a line, to a free cell or over the oldest one. -/
def write (line : Line) : Steps (Ring capacity) Unit := do
  .replace fun ring => (ring.cells.change ring.next fun _ => line).map ({ ring with cells := · })
  modify fun ring => { ring with next := (ring.next + 1) % capacity }
  modify fun ring => { ring with count := min (ring.count + 1) capacity }

/-- Starts over at the first cell. -/
def restart : Steps (Ring capacity) Unit :=
  modify fun ring => { ring with next := 0, count := 0 }

/-- The lines held, oldest first. -/
def lines (ring : Ring capacity) : List Line :=
  if ring.count < capacity then ring.cells.toList.take ring.count
  else ring.cells.toList.drop ring.next ++ ring.cells.toList.take ring.next

/-- The number of lines held. -/
def size (ring : Ring capacity) : Nat := ring.count

/-- No line is held. -/
def isEmpty (ring : Ring capacity) : Bool := ring.size == 0

/-- What can be asked of a journal. -/
inductive Request where
  /-- adds a line -/
  | append (line : Line)
  /-- forgets every line -/
  | clear
  deriving DecidableEq, Repr

/-- Handles a request. -/
def handle (ring : Ring capacity) : Request → Except Refusal Unit × Ring capacity
  | .append line => (write line).carryOut ring
  | .clear => restart.carryOut ring

/-- The journal with one more line. -/
def append (ring : Ring capacity) (line : Line) : Ring capacity := (ring.handle (.append line)).2

/-- The journal without its lines. -/
def clear (ring : Ring capacity) : Ring capacity := (ring.handle .clear).2

/-- The journal with several more lines, first to last. -/
def appendAll (ring : Ring capacity) (lines : List Line) : Ring capacity :=
  after handle ring (lines.map .append)

/-- The newest lines of a run, as many as a journal holds. -/
def newest (lines : List Line) : List Line := ((empty : Ring 300).appendAll lines).lines

end Ring

end OperandReport
