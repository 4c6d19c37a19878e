import OperandReport.Access

/-!
# Operand slots

Every opcode comes with a table of slots, one for each decoded field.  A slot
says what the field may hold, how it is accessed, and whether it is tied to
(constrained to equal) another slot.

Lookups past the end of a table are meaningful: the last entry of a register
list repeats, so such a slot shares its description, but never its tie.

Main results: `access_eq_widened` and `access_eq_nominal` say which of the two
readings of an access a slot reports.
-/

namespace OperandReport

/-- What a slot may hold. -/
inductive SlotKind where
  | unused
  | register
  | immediate
  /-- a register that is part of a memory operand -/
  | memoryRegister
  /-- an immediate that is part of a memory operand -/
  | memoryImmediate
  deriving DecidableEq, Repr, Inhabited

/-- The slot is part of a memory operand. -/
def SlotKind.isMemory : SlotKind → Bool
  | .memoryRegister | .memoryImmediate => true
  | _ => false

/-- The description of one slot of an opcode. -/
structure Slot where
  kind : SlotKind := .unused
  access : Access := .neither
  /-- the slot that this one has to equal -/
  tiedTo : Option Nat := none
  deriving DecidableEq, Repr, Inhabited

namespace Slot

/-- A register that is written. -/
def dst : Slot := ⟨.register, .writes, none⟩

/-- A register that is read. -/
def src : Slot := ⟨.register, .reads, none⟩

/-- An immediate. -/
def num : Slot := ⟨.immediate, .reads, none⟩

/-- A register of a memory operand that is loaded from. -/
def memReg : Slot := ⟨.memoryRegister, .reads, none⟩

/-- An immediate of a memory operand that is loaded from. -/
def memNum : Slot := ⟨.memoryImmediate, .reads, none⟩

/-- The base register of a memory operand that is stored to. -/
def memDst : Slot := ⟨.memoryRegister, .writes, none⟩

/-- A register that is read and has to equal slot `target`. -/
def sameAs (target : Nat) : Slot := ⟨.register, .reads, some target⟩

/-- A memory register that is read and has to equal slot `target`. -/
def memSameAs (target : Nat) : Slot := ⟨.memoryRegister, .reads, some target⟩

end Slot

/-- The slots of an opcode, in field order. -/
abbrev SlotTable := List Slot

namespace SlotTable

/-- The description of slot `i`; slots past the end share the last entry. -/
def describe (slots : SlotTable) (i : Nat) : Slot :=
  (slots[i]?.or slots.getLast?).getD {}

/-- Slot `i` has to equal another one.  A slot past the end is never tied. -/
def isTied (slots : SlotTable) (i : Nat) : Bool :=
  slots[i]?.any fun slot => slot.tiedTo.isSome

/-- Another slot has to equal slot `i`.  Tie targets are bytes, so only the low
byte of `i` is compared. -/
def isTieTarget (slots : SlotTable) (i : Nat) : Bool :=
  slots.any fun slot => slot.tiedTo == some (i % 256)

/-- The access that slot `i` reports: both ends of a tie are read and written. -/
def access (slots : SlotTable) (i : Nat) : Access :=
  if slots.isTied i || slots.isTieTarget i then (slots.describe i).access.widened
  else (slots.describe i).access

theorem access_eq_widened {slots : SlotTable} {i : Nat}
    (h : slots.isTied i = true ∨ slots.isTieTarget i = true) :
    slots.access i = (slots.describe i).access.widened := by
  rcases h with h | h <;> simp [access, h]

theorem access_eq_nominal {slots : SlotTable} {i : Nat}
    (ht : slots.isTied i = false) (hs : slots.isTieTarget i = false) :
    slots.access i = (slots.describe i).access := by
  simp [access, ht, hs]

theorem describe_of_lt {slots : SlotTable} {i : Nat} (h : i < slots.length) :
    slots.describe i = slots[i] := by
  simp [describe, h]

end SlotTable

end OperandReport
