import OperandReport.Instruction
import OperandReport.Text.Decimal

/-!
# Eight-bit floating-point immediates

A byte `abcdefgh` stands for a small binary fraction: `a` is the sign, `bcd` the
exponent and `efgh` the fraction of a significand between one and two.  Exponents
run from `-3` to `4`, so every value is an exact multiple of `1 / 128`, and is
exact in single and in double precision.
-/

namespace OperandReport.Arm

/-- The value `± (16 + fraction) / 16 * 2 ^ exponent`. -/
structure FloatImmediate where
  negative : Bool := false
  /-- the exponent plus three, below eight -/
  scale : Nat := 0
  /-- sixteenths in the significand, below sixteen -/
  fraction : Nat := 0
  deriving DecidableEq, Repr, Inhabited

namespace FloatImmediate

/-- The value that a byte stands for.  The top exponent bit is stored inverted:
codes 4 to 7 are the exponents `-3` to `0`, codes 0 to 3 are `1` to `4`. -/
def ofByte (n : Nat) : FloatImmediate where
  negative := n / 128 % 2 == 1
  scale := (n / 16 % 8 + 4) % 8
  fraction := n % 16

/-- The bits of the value in single precision. -/
def single (f : FloatImmediate) : Nat :=
  f.negative.toNat <<< 31 + (f.scale + 124) <<< 23 + f.fraction <<< 19

/-- The bits of the value in double precision. -/
def double (f : FloatImmediate) : Nat :=
  f.negative.toNat <<< 63 + (f.scale + 1020) <<< 52 + f.fraction <<< 48

/-- The magnitude, counted in units of `1 / 128`. -/
def units (f : FloatImmediate) : Nat := (16 + f.fraction) <<< f.scale

/-- The value with six decimal places. -/
def text (f : FloatImmediate) : String := Decimal.fixed 6 f.negative f.units 128

end FloatImmediate

end OperandReport.Arm
