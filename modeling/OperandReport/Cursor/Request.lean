import OperandReport.Container
import OperandReport.Cursor

/-!
# Requests to a cursor

Everything that can be asked of a cursor, as data, and how a cursor answers.  A request that
it refuses leaves it as it was.
-/

namespace OperandReport.Cursor

/-- What can be asked of a cursor. -/
inductive Request (α : Type) where
  /-- completes an operand at once -/
  | push (operand : α)
  /-- opens an operand -/
  | start (operand : α)
  /-- changes the open operand -/
  | changeOpen (change : α → α)
  /-- closes the open operand -/
  | close
  /-- looks at the operand at a distance from the end -/
  | look (offset : Int)
  /-- changes the operand at a distance from the end -/
  | changeAt (offset : Int) (change : α → α)
  /-- changes the newest completed operand, if there is one -/
  | changeLast (change : α → α)
  /-- gets the completed operand at a position -/
  | index (position : Nat)

/-- What a cursor answers. -/
inductive Reply (α : Type) where
  | done
  /-- the position of the operand that was completed -/
  | position (i : Nat)
  /-- the operand that was looked at, if there is one -/
  | seen (operand : Option α)
  /-- whether there was an operand to change -/
  | found (b : Bool)
  /-- the operand at a position -/
  | operand (a : α)

variable {α : Type} {capacity : Nat}

/-- The answer and the cursor after a request that may break a rule. -/
def settle (c : Cursor α capacity) (result : Except Fault (Cursor α capacity)) (reply : Reply α) :
    Except Refusal (Reply α) × Cursor α capacity :=
  match result with
  | .ok d => (.ok reply, d)
  | .error f => (.error (.fault f), c)

/-- Handles a request. -/
def handle (c : Cursor α capacity) :
    Request α → Except Refusal (Reply α) × Cursor α capacity
  | .push a => c.settle (c.push a) (.position c.length)
  | .start a => c.settle (c.start a) .done
  | .changeOpen change => c.settle (c.modifyOpen fun a => .ok (change a)) .done
  | .close => c.settle c.close .done
  | .look offset => (.ok (.seen (c.get? offset)), c)
  | .changeAt offset change => c.settle (c.modifyAt offset change) .done
  | .changeLast change => (.ok (.found !c.isEmpty), c.modifyLast change)
  | .index i =>
    match c.toList[i]? with
    | some a => (.ok (.operand a), c)
    | none => (.error (.pastEnd i c.length), c)

end OperandReport.Cursor
