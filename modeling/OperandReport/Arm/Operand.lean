import OperandReport.Access
import OperandReport.Arm.Condition
import OperandReport.Arm.Immediate.Float
import OperandReport.Arm.Immediate.Rotated
import OperandReport.Arm.PackedWord
import OperandReport.Arm.StatusRegister

/-!
# ARM operands

An operand as it is reported: its value, its access, a shift applied to it, the
vector element it selects, and whether it is subtracted from a base.
-/

namespace OperandReport.Arm

/-- How a shift is done, and whether its distance is a constant or in a register. -/
inductive ShiftKind where
  | none
  | asr
  | lsl
  | lsr
  | ror
  | rrx
  | uxtw
  | asrRegister
  | lslRegister
  | lsrRegister
  | rorRegister
  | rrxRegister
  deriving DecidableEq, Repr, Inhabited

namespace ShiftKind

/-- The name of a kind of shift. -/
def name : ShiftKind → String
  | none => "invalid"
  | asr | asrRegister => "asr"
  | lsl | lslRegister => "lsl"
  | lsr | lsrRegister => "lsr"
  | ror | rorRegister => "ror"
  | rrx | rrxRegister => "rrx"
  | uxtw => "uxtw"

/-- The distance is in a register. -/
def isByRegister : ShiftKind → Bool
  | asrRegister | lslRegister | lsrRegister | rorRegister | rrxRegister => true
  | _ => false

/-- The kind of a shift by a constant. -/
def ofOperation : ShiftOperation → ShiftKind
  | .none => none
  | .asr => asr
  | .lsl => lsl
  | .lsr => lsr
  | .ror => ror
  | .rrx => rrx
  | .uxtw => uxtw

/-- The kind of a shift by a register; operations that take no register give none. -/
def ofRegisterOperation : ShiftOperation → ShiftKind
  | .asr => asrRegister
  | .lsl => lslRegister
  | .lsr => lsrRegister
  | .ror => rorRegister
  | .rrx => rrxRegister
  | .none | .uxtw => none

end ShiftKind

/-- A shift: its kind, and its distance or the number of the register that holds
the distance. -/
structure Shift where
  kind : ShiftKind := .none
  value : Nat := 0
  deriving DecidableEq, Repr, Inhabited

namespace Shift

/-- The shift by a constant; "no shift" and a left shift by zero are no shift at
all, and the extended rotation has no distance. -/
def constant? (operation : ShiftOperation) (amount : Nat) : Option Shift :=
  match operation with
  | .none => Option.none
  | .rrx => some ⟨.rrx, 0⟩
  | .lsl => if amount = 0 then Option.none else some ⟨.lsl, amount⟩
  | operation => some ⟨.ofOperation operation, shiftDistance amount⟩

/-- The shift by a register; the extended rotation has no distance. -/
def byRegister (operation : ShiftOperation) (r : Register) : Shift :=
  match operation with
  | .rrx => ⟨.rrx, 0⟩
  | operation => ⟨.ofRegisterOperation operation, r.id⟩

/-- The register that holds the distance, if there is one. -/
def register? (s : Shift) : Option Register :=
  if s.kind.isByRegister then (Register.ofId? (s.value % 65536)).filter Register.isSome
  else Option.none

end Shift

/-- A memory operand. -/
structure Memory where
  base : Register := .none
  index : Register := .none
  scale : Nat := 1
  /-- a signed displacement -/
  displacement : Word := 0
  /-- left shift of the index register -/
  leftShift : Nat := 0
  /-- alignment in bytes, zero if not given -/
  alignment : Nat := 0
  deriving DecidableEq, Repr, Inhabited

/-- Adds a register to a memory operand: the base first, then the index. -/
def Memory.attach (m : Memory) (r : Register) : Memory :=
  if m.base.isSome then { m with index := r } else { m with base := r }

/-- What an operand is. -/
inductive Value where
  | unset
  | register (r : Register)
  | immediate (value : Imm)
  | coprocessorRegister (n : Nat)
  | coprocessor (n : Nat)
  | float (value : FloatImmediate)
  | memory (m : Memory)
  | status (register : StatusRegister)
  | endianness (order : Endianness)
  deriving DecidableEq, Repr, Inhabited

/-- One reported operand. -/
structure Operand where
  value : Value := .unset
  access : Access := .neither
  shift : Shift := {}
  /-- the element that a scalar operand selects -/
  vectorIndex : Option Nat := none
  /-- the lane that an element transfer selects -/
  lane : Option Nat := none
  /-- an offset or index that is subtracted from the base -/
  subtracted : Bool := false
  deriving DecidableEq, Repr, Inhabited

namespace Operand

/-- A register operand. -/
def ofRegister (r : Register) (access : Access) : Operand := { value := .register r, access }

/-- An immediate operand, which is read. -/
def ofImmediate (v : Imm) (subtracted : Bool) : Operand :=
  { value := .immediate v, access := .reads, subtracted }

/-- A small unsigned immediate operand. -/
def ofNat (n : Nat) : Operand := ofImmediate (BitVec.ofNat 64 n) false

/-- A value that is read. -/
def ofValue (value : Value) : Operand := { value, access := .reads }

/-- Changes the memory operand inside an open operand. -/
def modifyMemory (f : Memory → Memory) (op : Operand) : Except Fault Operand :=
  match op.value with
  | .memory m => .ok { op with value := .memory (f m) }
  | _ => .error .openOperandNotMemory

/-- The operand with a shift. -/
def withShift (shift : Shift) (op : Operand) : Operand := { op with shift }

end Operand

end OperandReport.Arm
