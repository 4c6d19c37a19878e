import OperandReport.Cursor.Edit
import OperandReport.Power.Register.Part
import OperandReport.Power.Report

/-!
# PowerPC operand contributions

What an operand form at a field contributes to the operands, as a list of edits
computed from the encoded instruction alone.
-/

namespace OperandReport.Power

/-! ## Numbers -/

/-- The low `bits` of an immediate as a signed number. -/
def signedField (bits : Nat) (v : Imm) : Imm := (v.setWidth bits).signExtend 64

/-- The low `bits` of an immediate as an unsigned number. -/
def unsignedField (bits : Nat) (v : Imm) : Imm := (v.setWidth bits).setWidth 64

/-- The byte offset of a branch field, which counts words: a signed 32-bit number. -/
def branchOffset (v : Imm) : Imm := (v.word <<< 2).signExtend 64

/-- An address as the mode has it: all of it in wide mode, or its low 32 bits. -/
def addressIn (mode : Mode) (v : Imm) : Imm := if mode.wide then v else v.word.setWidth 64

/-! ## Pieces -/

/-- Completes an immediate. -/
def reportImmediate (v : Imm) : Edit Operand := .report (.ofImmediate v)

/-- Completes the register at field `i`, or the vector-scalar register over it where
the slot holds one. -/
def registerEdits (e : Encoded) (i : Nat) : List (Edit Operand) :=
  let r := registerAt e i
  if i ∈ e.opcode.vectorScalarSlots then
    let operand := Edit.report ⟨.register r.vectorScalar, accessAt e i⟩
    if r.overlapsVectorScalar then [operand] else [.note r.overlapMissing, operand]
  else [.report ⟨.register r, accessAt e i⟩]

/-- A field on its own, completed as a register or as an immediate. -/
def plainEdits (e : Encoded) (i : Nat) : List (Edit Operand) :=
  match e.field i with
  | .vacant => []
  | .register id => if id = 0 then [] else registerEdits e i
  | .immediate v => [reportImmediate v]

/-- The base register at field `i`, absent if it reads as zero. -/
def baseAt (e : Encoded) (i : Nat) : Register :=
  if (registerAt e i).readsAsZero then .none else registerAt e i

/-- A memory operand with the access that the template gives it. -/
def memoryOperand (e : Encoded) (m : Memory) : Operand :=
  ⟨.memory m, if e.opcode.store then .writes else .reads⟩

/-- The note on a memory operand without a base register. -/
def baseMissing (e : Encoded) : Edit Operand :=
  .note s!"[ppc::mapping] {e.opcode.name} has no base register"

/-- A displacement with its base at the next field; without a base only the
displacement is completed. -/
def displacedEdits (e : Encoded) (i : Nat) (displacement : Imm) : List (Edit Operand) :=
  if e.isRegister (i + 1) then
    [.bracket (memoryOperand e { base := baseAt e (i + 1), displacement })]
  else [baseMissing e, reportImmediate displacement]

/-- A branch target, absolute or relative to the address of the instruction. -/
def branchEdits (e : Encoded) (i : Nat) : List (Edit Operand) :=
  if e.isImmediate i then
    let offset := branchOffset (e.immediate i)
    if e.opcode.absolute then [reportImmediate offset]
    else [reportImmediate (addressIn e.mode (e.address + offset))]
  else plainEdits e i

/-! ## Forms -/

/-- What an operand form at field `i` contributes. -/
def OperandForm.edits (e : Encoded) (i : Nat) : OperandForm → List (Edit Operand)
  | .plain => plainEdits e i
  | .indexed =>
    if e.isRegister i then
      [.bracket (memoryOperand e { base := baseAt e i, index := registerAt e (i + 1) })]
    else baseMissing e :: (plainEdits e i ++ plainEdits e (i + 1))
  | .displaced => displacedEdits e i (signedField 16 (e.immediate i))
  | .displacedExactly => displacedEdits e i (e.immediate i)
  | .displacedFar => displacedEdits e i (signedField 34 (e.immediate i))
  | .displacedFromPc =>
    [.bracket (memoryOperand e { displacement := signedField 34 (e.immediate i) })]
  | .unsigned bits => [reportImmediate (unsignedField bits (e.immediate i))]
  | .signed bits => [reportImmediate (signedField bits (e.immediate i))]
  | .zero =>
    if e.immediate i = 0 then [reportImmediate 0]
    else [.note s!"[ppc::mapping] {e.opcode.name} expects a zero immediate", reportImmediate 0]
  | .branch | .annotatedCall => branchEdits e i
  | .absoluteBranch => [reportImmediate (branchOffset (e.immediate i))]
  | .predicateRegister => if e.registerId (i + 1) = 0 then [] else registerEdits e (i + 1)
  | .conditionField => registerEdits e i

end OperandReport.Power
