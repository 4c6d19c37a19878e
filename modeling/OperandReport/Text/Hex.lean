/-!
# Hexadecimal text

Numbers in base sixteen, lower case and without leading zeros, behind `0x`; a
negative number has its sign in front of that.
-/

namespace OperandReport.Hex

/-- The digit for a value below sixteen. -/
def digit (n : Nat) : Char :=
  if n < 10 then Char.ofNat ('0'.toNat + n) else Char.ofNat ('a'.toNat + (n - 10))

/-- The digits of a number, most significant first. -/
def digits (n : Nat) : List Char :=
  if n < 16 then [digit n] else digits (n / 16) ++ [digit (n % 16)]

/-- A number behind its base marker. -/
def ofNat (n : Nat) : String := "0x" ++ String.ofList (digits n)

/-- A signed number: sign, base marker, magnitude. -/
def ofInt (i : Int) : String := if i < 0 then "-" ++ ofNat i.natAbs else ofNat i.natAbs

/-- The low `width` digits of a number, with leading zeros. -/
def padded (width n : Nat) : String :=
  String.ofList ((List.range width).reverse.map fun k => digit (n >>> (4 * k) % 16))

end OperandReport.Hex
