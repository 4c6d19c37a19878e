/-!
# Numerals

Numbers written with the digits of a base up to sixteen, most significant first;
letters stand for the digits from ten on, in either case.
-/

namespace OperandReport.Numeral

/-- The value of a character as a digit. -/
def value? (c : Char) : Option Nat :=
  if '0' ≤ c ∧ c ≤ '9' then some (c.toNat - '0'.toNat)
  else if 'a' ≤ c ∧ c ≤ 'f' then some (c.toNat - 'a'.toNat + 10)
  else if 'A' ≤ c ∧ c ≤ 'F' then some (c.toNat - 'A'.toNat + 10)
  else none

/-- The value of a character as a digit of `base`. -/
def digit? (base : Nat) (c : Char) : Option Nat := (value? c).filter (· < base)

/-- The number that a run of digits stands for; an empty run stands for none. -/
def read? (base : Nat) (digits : List Char) : Option Nat :=
  if digits.isEmpty then none
  else digits.foldlM (fun n c => (digit? base c).map (n * base + ·)) 0

theorem lt_of_digit? {base value : Nat} {c : Char} (h : digit? base c = some value) :
    value < base := by
  simpa using (Option.filter_eq_some_iff.1 h).2

end OperandReport.Numeral
