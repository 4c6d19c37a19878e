import OperandReport.Fault

/-!
# PowerPC registers

A register is named by its number in the register file; zero is no register at
all.  The families follow each other without gaps.

The 64 vector-scalar registers overlap the floating-point registers with their
lower half and the vector registers with their upper half.  A condition register
has eight fields of four bits each.
-/

namespace OperandReport.Power

/-- A register by its number in the register file. -/
structure Register where
  id : Nat := 0
  deriving DecidableEq, Repr, Inhabited

/-- The families of registers. -/
inductive Register.Family where
  | special
  | general
  | floating
  | vector
  | vectorScalar
  | conditionField
  | conditionBit
  deriving DecidableEq, Repr

namespace Register

/-- The number of the first register of a family. -/
def Family.first : Family → Nat
  | special => 1
  | general => 9
  | floating => 41
  | vector => 73
  | vectorScalar => 105
  | conditionField => 169
  | conditionBit => 177

/-- The number of registers in a family. -/
def Family.count : Family → Nat
  | special => 8
  | general => 32
  | floating => 32
  | vector => 32
  | vectorScalar => 64
  | conditionField => 8
  | conditionBit => 32

/-- All families, in the order of the numbering. -/
def Family.all : List Family :=
  [special, general, floating, vector, vectorScalar, conditionField, conditionBit]

/-- The register number lies in the family. -/
def Family.holds (family : Family) (r : Register) : Bool :=
  family.first ≤ r.id && r.id < family.first + family.count

theorem Family.holds_iff {family : Family} {r : Register} :
    family.holds r = true ↔ family.first ≤ r.id ∧ r.id < family.first + family.count := by
  simp [holds]

/-- No register. -/
def none : Register := ⟨0⟩
def carry : Register := ⟨1⟩
def ctr : Register := ⟨2⟩
def lr : Register := ⟨3⟩
def rm : Register := ⟨4⟩

/-- The names of the special registers, in the order of the numbering. -/
def specialNames : List String := ["carry", "ctr", "lr", "rm", "vrsave", "xer", "zero", "zero8"]

/-- The family of a register; no register, or an unknown number, has none. -/
def family? (r : Register) : Option Family := Family.all.find? (·.holds r)

/-- It is a register, and not the absence of one. -/
def isSome (r : Register) : Bool := r.id != 0

/-- The register with a number, if the number is zero or belongs to a family. -/
def ofId? (id : Nat) : Option Register :=
  if id = 0 ∨ (family? ⟨id⟩).isSome then some ⟨id⟩ else Option.none

/-- The index of a register in its family; special registers have none. -/
def index? (r : Register) : Option Nat :=
  match r.family? with
  | Option.none | some .special => Option.none
  | some family => some (r.id - family.first)

/-- The register of a family with an index below 32. -/
def general (n : Nat) : Register := ⟨Family.general.first + n⟩

/-- The condition field of an index below eight. -/
def conditionField (n : Nat) : Register := ⟨Family.conditionField.first + n⟩

/-- The register of a family with an index; an index outside the family is a fault. -/
def build (family : Family) (n : Nat) : Except Fault Register :=
  if n < family.count then .ok ⟨family.first + n⟩ else .error .registerNumber

/-- As a memory base the register reads as zero instead of its contents. -/
def readsAsZero (r : Register) : Bool := r.id == 7 || r.id == 8 || r == general 0

/-- The names of the bits of a condition field. -/
def bitNames : List String := ["lt", "gt", "eq", "un"]

/-- The name of a register. -/
def name (r : Register) : String :=
  let n := r.index?.getD 0
  match r.family? with
  | Option.none => "invalid"
  | some .special => specialNames.getD (r.id - 1) "invalid"
  | some .general => s!"r{n}"
  | some .floating => s!"f{n}"
  | some .vector => s!"v{n}"
  | some .vectorScalar => s!"vs{n}"
  | some .conditionField => s!"cr{n}"
  | some .conditionBit => s!"cr{n / 4}" ++ bitNames.getD (n % 4) ""

end Register

end OperandReport.Power
