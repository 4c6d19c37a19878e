/-!
# Fixed-place decimals

A fraction written with a fixed number of places.  The quotient is rounded to the
nearest multiple of the last place; a tie goes to the even neighbour.
-/

namespace OperandReport.Decimal

/-- The quotient `num / den` rounded to the nearest integer, ties to even. -/
def roundDiv (num den : Nat) : Nat :=
  let q := num / den
  let twice := 2 * (num % den)
  if twice < den then q
  else if den < twice then q + 1
  else q + q % 2

/-- Decimal digits of `n`, with leading zeros up to `width`. -/
def padded (width n : Nat) : String :=
  let text := toString n
  String.ofList (List.replicate (width - text.length) '0') ++ text

/-- The fraction `num / den` with the given number of places. -/
def fixed (places : Nat) (negative : Bool) (num den : Nat) : String :=
  let unit := Nat.pow 10 places
  let scaled := roundDiv (num * unit) den
  let whole := scaled / unit
  let part := padded places (scaled % unit)
  (if negative then "-" else "") ++ s!"{whole}.{part}"

end OperandReport.Decimal
