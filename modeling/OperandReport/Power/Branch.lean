import OperandReport.Power.Register

/-!
# Branch conditions

A conditional branch has two fields.  `bi` selects a bit of the condition
register.  `bo` says, bit by bit: ignore the condition bit (16), the value wanted
of it (8), leave the count register alone (4), branch when the count has become
zero (2); what remains are prediction bits, whose place depends on which of the
two tests is made.

## Main results

* `Condition.bo_lt`, `Condition.bi_lt`: the fields of a condition are five bits.
* `Condition.countTest_isSome`: the count register is used exactly when bit 2 of
  `bo` is clear.
-/

namespace OperandReport.Power

/-- A bit of a condition field. -/
inductive ConditionBit where
  | lt
  | gt
  | eq
  /-- summary overflow, or unordered after a floating-point comparison -/
  | so
  deriving DecidableEq, Repr

namespace ConditionBit

/-- The bit at a place in its field. -/
def ofPlace (n : Nat) : ConditionBit :=
  match n % 4 with
  | 0 => lt
  | 1 => gt
  | 2 => eq
  | _ => so

/-- The name of a bit. -/
def name : ConditionBit → String
  | lt => "lt"
  | gt => "gt"
  | eq => "eq"
  | so => "so"

end ConditionBit

/-- What is asked of a condition bit. -/
inductive ConditionTest where
  | lt
  | le
  | eq
  | ge
  | gt
  | ne
  | un
  | nu
  deriving DecidableEq, Repr

namespace ConditionTest

/-- The test that a bit be set, or be clear. -/
def ofBit (bit : ConditionBit) (set : Bool) : ConditionTest :=
  match bit, set with
  | .lt, true => lt
  | .lt, false => ge
  | .gt, true => gt
  | .gt, false => le
  | .eq, true => eq
  | .eq, false => ne
  | .so, true => un
  | .so, false => nu

/-- The name of a test. -/
def name : ConditionTest → String
  | lt => "lt"
  | le => "le"
  | eq => "eq"
  | ge => "ge"
  | gt => "gt"
  | ne => "ne"
  | un => "un"
  | nu => "nu"

end ConditionTest

/-- What is asked of the count register after it was decremented. -/
inductive CountTest where
  | zero
  | nonzero
  deriving DecidableEq, Repr

/-- The name of a test. -/
def CountTest.name : CountTest → String
  | .zero => "z"
  | .nonzero => "nz"

/-- The predicted direction of a branch. -/
inductive Hint where
  | none
  | unlikely
  | likely
  deriving DecidableEq, Repr, Inhabited

/-- The prediction of two bits; higher bits are ignored. -/
def Hint.ofBits (n : Nat) : Hint :=
  match n % 4 with
  | 2 => unlikely
  | 3 => likely
  | _ => none

/-- The condition of a branch. -/
structure Condition where
  bo : Nat
  bi : Nat
  /-- the condition field that holds the selected bit -/
  field : Register
  bit : ConditionBit
  /-- absent when the condition register is ignored -/
  test : Option ConditionTest
  /-- absent when the count register is left alone -/
  countTest : Option CountTest
  hint : Hint
  deriving DecidableEq, Repr

namespace Condition

/-- The prediction bits of `bo`.  A branch on a condition bit alone has both at the
bottom; one on the count alone has them around the bit for zero; one on both, or on
neither, has none. -/
def predictionBits (bo : Nat) : Nat :=
  if bo / 16 % 2 = 0 ∧ bo / 4 % 2 = 1 then bo % 4
  else if bo / 16 % 2 = 1 ∧ bo / 4 % 2 = 0 then 2 * (bo / 8 % 2) + bo % 2
  else 0

/-- The condition of two fields; bits above the low five are ignored. -/
def decode (bo bi : Nat) : Condition where
  bo := bo % 32
  bi := bi % 32
  field := .conditionField (bi % 32 / 4)
  bit := .ofPlace bi
  test := if bo / 16 % 2 = 0 then some (.ofBit (.ofPlace bi) (bo / 8 % 2 == 1)) else none
  countTest :=
    if bo / 4 % 2 = 0 then some (if bo / 2 % 2 = 1 then .zero else .nonzero) else none
  hint := .ofBits (predictionBits bo)

/-- The branch decrements the count register. -/
def decrementsCount (c : Condition) : Bool := c.countTest.isSome

theorem bo_lt (bo bi : Nat) : (decode bo bi).bo < 32 := Nat.mod_lt _ (by decide)

theorem bi_lt (bo bi : Nat) : (decode bo bi).bi < 32 := Nat.mod_lt _ (by decide)

/-- The count register is used exactly when bit 2 of `bo` is clear. -/
theorem countTest_isSome (bo bi : Nat) :
    (decode bo bi).countTest.isSome = true ↔ bo / 4 % 2 = 0 := by
  by_cases h : bo / 4 % 2 = 0 <;> simp [decode, h]

end Condition

end OperandReport.Power
