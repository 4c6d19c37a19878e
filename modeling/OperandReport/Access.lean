/-!
# Operand access

An operand is read, written, both or neither.  The two facts are kept as two
independent bits, so that widening, union and the numeric code are all plain
Boolean algebra.
-/

namespace OperandReport

/-- Whether an operand is read and whether it is written. -/
structure Access where
  read : Bool := false
  write : Bool := false
  deriving DecidableEq, Repr, Inhabited

namespace Access

/-- The operand is neither read nor written. -/
def neither : Access := ⟨false, false⟩

/-- The operand is only read. -/
def reads : Access := ⟨true, false⟩

/-- The operand is only written. -/
def writes : Access := ⟨false, true⟩

/-- The operand is read and written. -/
def both : Access := ⟨true, true⟩

/-- The numeric code: bit 0 for a read, bit 1 for a write. -/
def bits (a : Access) : Nat := a.read.toNat + 2 * a.write.toNat

/-- The access with a given numeric code; bits above the low two are dropped. -/
def ofBits (n : Nat) : Access := ⟨n % 2 == 1, n / 2 % 2 == 1⟩

/-- The access of a slot that takes part in a tie: a reader becomes a writer
too, anything else becomes a reader too. -/
def widened (a : Access) : Access :=
  if a = reads then both else { a with read := true }

/-- The name a listing gives to the access; an untouched operand has none. -/
def label? (a : Access) : Option String :=
  match a.read, a.write with
  | true, true => some "READ | WRITE"
  | true, false => some "READ"
  | false, true => some "WRITE"
  | false, false => none

theorem ofBits_bits (a : Access) : ofBits a.bits = a := by
  rcases a with ⟨_ | _, _ | _⟩ <;> rfl

/-- Widening an access that reads or writes gives both. -/
theorem widened_eq_both {a : Access} (h : a ≠ neither) : a.widened = both := by
  rcases a with ⟨_ | _, _ | _⟩
  · exact absurd rfl h
  all_goals rfl

end Access

end OperandReport
