/-!
# Decoded instructions

A decoded instruction is an opcode with its fields, the address it was found at
and the mode it was decoded in.  A field that the decoder left out, or that lies
past the last one, is vacant; asking a field for the kind of content that it does
not have gives zero.

An instruction may carry a report on its operands.  One decoded without detail
has none, and then there is nothing to write to.
-/

namespace OperandReport

/-- A 64-bit immediate, two's complement. -/
abbrev Imm := BitVec 64

/-- A 32-bit word, as packed fields and displacements are. -/
abbrev Word := BitVec 32

/-- The low 32 bits of an immediate. -/
def Imm.word (v : Imm) : Word := v.setWidth 32

/-- The low eight bits of an immediate. -/
def Imm.byte (v : Imm) : Nat := v.toNat % 256

/-- A decoded field, before any interpretation. -/
inductive Field where
  /-- a register by its number in the register file; zero stands for no register -/
  | register (id : Nat)
  | immediate (value : Imm)
  | vacant
  deriving DecidableEq, Repr, Inhabited

/-- The field names no register and holds no immediate. -/
def Field.isVacant : Field → Bool
  | .register id => id == 0
  | .immediate _ => false
  | .vacant => true

/-- What the decoder was told about the code stream. -/
structure Mode where
  thumb : Bool := false
  v8 : Bool := false
  mClass : Bool := false
  bigEndian : Bool := false
  wide : Bool := false
  deriving DecidableEq, Repr, Inhabited

namespace Mode

/-- The numeric code, one bit for each flag in order of declaration. -/
def bits (m : Mode) : Nat :=
  m.thumb.toNat + 2 * m.v8.toNat + 4 * m.mClass.toNat + 8 * m.bigEndian.toNat + 16 * m.wide.toNat

/-- The mode with a given numeric code; bits above the low five are dropped. -/
def ofBits (n : Nat) : Mode where
  thumb := n % 2 == 1
  v8 := n / 2 % 2 == 1
  mClass := n / 4 % 2 == 1
  bigEndian := n / 8 % 2 == 1
  wide := n / 16 % 2 == 1

/-- The flags of both modes. -/
def union (m k : Mode) : Mode where
  thumb := m.thumb || k.thumb
  v8 := m.v8 || k.v8
  mClass := m.mClass || k.mClass
  bigEndian := m.bigEndian || k.bigEndian
  wide := m.wide || k.wide

theorem ofBits_bits (m : Mode) : ofBits m.bits = m := by
  rcases m with ⟨_ | _, _ | _, _ | _, _ | _, _ | _⟩ <;> rfl

end Mode

/-- An opcode with its fields, address and mode. -/
structure Encoded (τ : Type) where
  opcode : τ
  fields : List Field
  address : BitVec 64 := 0
  mode : Mode := {}
  deriving DecidableEq, Repr, Inhabited

namespace Encoded

variable {τ : Type}

/-- The field at `i`, vacant past the last one. -/
def field (e : Encoded τ) (i : Nat) : Field := e.fields.getD i .vacant

/-- The field at `i` names a register, if only register zero. -/
def isRegister (e : Encoded τ) (i : Nat) : Bool :=
  match e.field i with
  | .register _ => true
  | _ => false

/-- The field at `i` is an immediate. -/
def isImmediate (e : Encoded τ) (i : Nat) : Bool :=
  match e.field i with
  | .immediate _ => true
  | _ => false

/-- The register number at `i`, zero if the field is no register. -/
def registerId (e : Encoded τ) (i : Nat) : Nat :=
  match e.field i with
  | .register id => id
  | _ => 0

/-- The immediate at `i`, zero if the field is no immediate. -/
def immediate (e : Encoded τ) (i : Nat) : Imm :=
  match e.field i with
  | .immediate v => v
  | _ => 0

theorem field_eq_vacant {e : Encoded τ} {i : Nat} (h : e.fields.length ≤ i) :
    e.field i = .vacant := by
  simp [field, h]

end Encoded

/-- An encoded instruction, with a report on its operands if one was asked for. -/
structure Instruction (τ ρ : Type) extends Encoded τ where
  report : Option ρ := none
  deriving DecidableEq, Repr, Inhabited

namespace Instruction

variable {τ ρ : Type}

/-- The instruction with a fresh report, or without one. -/
def ofEncoded [Inhabited ρ] (e : Encoded τ) (detail : Bool) : Instruction τ ρ :=
  { e with report := if detail then some default else none }

end Instruction

end OperandReport
