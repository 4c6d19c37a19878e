import OperandReport.Container
import OperandReport.OrderedSet

/-!
# Requests to an ordered set

Everything that can be asked of an ordered set, as data, and how a set answers.  A request that
it refuses leaves it as it was.
-/

namespace OperandReport.OrderedSet

/-- What can be asked of an ordered set. -/
inductive Request (α : Type) where
  /-- adds a member, and says whether it is new -/
  | insert (member : α)
  /-- takes a member out, and says whether it was there -/
  | erase (member : α)
  /-- says whether it is a member -/
  | contains (member : α)

variable {α : Type} [DecidableEq α] {capacity : Nat}

/-- Handles a request. -/
def handle (s : OrderedSet α capacity) :
    Request α → Except Refusal Bool × OrderedSet α capacity
  | .insert a =>
    match s.insert a with
    | .ok t => (.ok !s.contains a, t)
    | .error f => (.error (.fault f), s)
  | .erase a => (.ok (s.contains a), s.erase a)
  | .contains a => (.ok (s.contains a), s)

end OperandReport.OrderedSet
