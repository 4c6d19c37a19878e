/-!
# Conditions

The conditions under which an instruction, or one lane of a vector instruction,
takes effect, and the masks that spread a condition over a block of instructions.
-/

namespace OperandReport.Arm

/-- A condition on the status flags. -/
inductive Condition where
  | eq
  | ne
  | hs
  | lo
  | mi
  | pl
  | vs
  | vc
  | hi
  | ls
  | ge
  | lt
  | gt
  | le
  | al
  /-- the reserved code -/
  | undefined
  deriving DecidableEq, Repr, Inhabited

namespace Condition

/-- All conditions, in the order of their codes. -/
def all : List Condition :=
  [eq, ne, hs, lo, mi, pl, vs, vc, hi, ls, ge, lt, gt, le, al, undefined]

/-- The condition of a four-bit code; higher bits are ignored. -/
def ofCode (n : Nat) : Condition := all.getD (n % 16) undefined

/-- The name of a condition. -/
def name : Condition → String
  | eq => "eq"
  | ne => "ne"
  | hs => "hs"
  | lo => "lo"
  | mi => "mi"
  | pl => "pl"
  | vs => "vs"
  | vc => "vc"
  | hi => "hi"
  | ls => "ls"
  | ge => "ge"
  | lt => "lt"
  | gt => "gt"
  | le => "le"
  | al => "al"
  | undefined => "<und>"

/-- Only code 14 means "always". -/
theorem ofCode_eq_al_iff (n : Nat) : ofCode n = al ↔ n % 16 = 14 := by
  have key : ∀ m : Fin 16, all.getD m.val undefined = al ↔ m.val = 14 := by decide
  exact key ⟨n % 16, Nat.mod_lt _ (by decide)⟩

end Condition

/-- The side of a predicated block that a vector instruction belongs to. -/
inductive VectorCondition where
  | thenLane
  | elseLane
  deriving DecidableEq, Repr

namespace VectorCondition

/-- The side of a code; most codes mean "not predicated". -/
def ofCode? : Nat → Option VectorCondition
  | 1 => some thenLane
  | 2 => some elseLane
  | _ => none

/-- The name of a side. -/
def name : VectorCondition → String
  | thenLane => "t"
  | elseLane => "e"

end VectorCondition

/-- The sides of the instructions that follow the first one of a block, then
(`true`) or else (`false`).  The lowest set bit of the mask ends the block, each
higher one gives one instruction its side, top bit first. -/
def blockSides (mask : Nat) : List Bool :=
  match (List.range 4).find? mask.testBit with
  | none => []
  | some low =>
    (((List.range 4).filter fun k => low < k).reverse).map fun k => !mask.testBit k

/-- What an interrupt change does. -/
inductive InterruptMode where
  | enable
  | disable
  deriving DecidableEq, Repr

namespace InterruptMode

/-- The change of a code; most codes mean "none". -/
def ofCode? : Nat → Option InterruptMode
  | 2 => some enable
  | 3 => some disable
  | _ => none

/-- The name of a change. -/
def name : InterruptMode → String
  | enable => "ie"
  | disable => "id"

end InterruptMode

/-- The byte order that an instruction selects. -/
inductive Endianness where
  | big
  | little
  deriving DecidableEq, Repr

/-- The name of a byte order. -/
def Endianness.name : Endianness → String
  | .big => "be"
  | .little => "le"

end OperandReport.Arm
