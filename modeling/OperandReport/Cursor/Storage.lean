import OperandReport.Cursor.Request

/-!
# Cursor storage

A cursor as it is laid out: a fixed row of cells, the number of completed operands, and a flag.
The completed operands are the first cells.  While the flag is up, the cell behind them holds
the open operand; it can be changed there, but it is not counted.

Each operation checks its rules first and changes cells, flag and count after that.
-/

namespace OperandReport.Cursor

/-- A row of cells that holds a cursor. -/
structure Storage (α : Type) (capacity : Nat) where
  cells : Cells α capacity
  /-- the number of completed operands -/
  count : Nat := 0
  isOpen : Bool := false

namespace Storage

variable {α : Type} {capacity : Nat}

/-- A storage without operands. -/
def empty [Inhabited α] : Storage α capacity where
  cells := Vector.replicate capacity default

/-- The completed operands, oldest first. -/
def toList (s : Storage α capacity) : List α := s.cells.toList.take s.count

/-- The operand that is open. -/
def pending (s : Storage α capacity) : Option α := if s.isOpen then s.cells[s.count]? else none

/-- No operand is completed. -/
def isEmpty (s : Storage α capacity) : Bool := s.count == 0

/-- The position of the newest completed operand. -/
def lastIndex? (s : Storage α capacity) : Option Nat :=
  if s.count = 0 then none else some (s.count - 1)

/-- The cell at a distance from the end, if it holds an operand: `0` is the open one, `-1` the
newest completed one. -/
def place? (s : Storage α capacity) (offset : Int) : Option Nat :=
  let place := s.count + offset
  if 0 ≤ place ∧ place.toNat < s.count + s.isOpen.toNat then some place.toNat else none

/-- Changes the content of a cell. -/
def changeCell (i : Nat) (f : α → α) : Steps (Storage α capacity) Unit :=
  .replace fun s => (s.cells.change i f).map ({ s with cells := · })

/-- Reads a cell. -/
def readCell (i : Nat) : Steps (Storage α capacity) α := do
  let s ← get
  match s.cells[i]? with
  | some a => return a
  | none => throw (.pastEnd i capacity)

/-- Writes an operand behind the completed ones, unless one is open or all cells are taken. -/
def occupy (busy : Fault) (a : α) : Steps (Storage α capacity) Unit := do
  let s ← get
  if s.isOpen then throw (.fault busy)
  if capacity ≤ s.count then throw (.fault (.operandsFull capacity))
  changeCell s.count fun _ => a

/-- Completes an operand at once, and gives its position. -/
def push (a : α) : Steps (Storage α capacity) Nat := do
  let s ← get
  occupy .addedWhileOpen a
  modify fun s => { s with count := s.count + 1 }
  return s.count

/-- Opens an operand. -/
def start (a : α) : Steps (Storage α capacity) Unit := do
  occupy .openedTwice a
  modify fun s => { s with isOpen := true }

/-- Changes the open operand. -/
def changeOpen (f : α → α) : Steps (Storage α capacity) Unit := do
  let s ← get
  unless s.isOpen do throw (.fault .notOpen)
  changeCell s.count f

/-- Closes the open operand, which is then completed. -/
def close : Steps (Storage α capacity) Unit := do
  let s ← get
  unless s.isOpen do throw (.fault .notOpen)
  modify fun s => { s with isOpen := false }
  modify fun s => { s with count := s.count + 1 }

/-- The operand at a distance from the end. -/
def look (offset : Int) : Steps (Storage α capacity) (Option α) := do
  let s ← get
  match s.place? offset with
  | some i => some <$> readCell i
  | none => return none

/-- Changes the operand at a distance from the end. -/
def changeAt (offset : Int) (f : α → α) : Steps (Storage α capacity) Unit := do
  let s ← get
  match s.place? offset with
  | some i => changeCell i f
  | none => throw (.fault (.operandMissing offset s.count s.isOpen))

/-- Changes the newest completed operand, and says whether there is one. -/
def changeLast (f : α → α) : Steps (Storage α capacity) Bool := do
  let s ← get
  match s.lastIndex? with
  | some i => do changeCell i f; return true
  | none => return false

/-- The completed operand at a position. -/
def index (i : Nat) : Steps (Storage α capacity) α := do
  let s ← get
  match s.toList[i]? with
  | some a => return a
  | none => throw (.pastEnd i s.count)

/-- The steps of a request. -/
def respond : Request α → Steps (Storage α capacity) (Reply α)
  | .push a => .position <$> push a
  | .start a => do start a; return .done
  | .changeOpen change => do changeOpen change; return .done
  | .close => do close; return .done
  | .look offset => .seen <$> look offset
  | .changeAt offset change => do changeAt offset change; return .done
  | .changeLast change => .found <$> changeLast change
  | .index i => .operand <$> index i

/-- Handles a request. -/
def handle (s : Storage α capacity) (request : Request α) :
    Except Refusal (Reply α) × Storage α capacity :=
  (respond request).carryOut s

end Storage

end OperandReport.Cursor
