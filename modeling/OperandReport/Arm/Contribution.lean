import OperandReport.Arm.Immediate.Bitfield
import OperandReport.Arm.Immediate.Vector
import OperandReport.Arm.Register.Part
import OperandReport.Arm.Report
import OperandReport.Cursor.Edit

/-!
# ARM operand contributions

What an operand form at a field contributes to the operands, as a list of edits.
The list is computed from the encoded instruction alone: from the fields of the
form's window, the slot table, and for a relative target the address and mode.
-/

namespace OperandReport.Arm

/-! ## Numbers -/

/-- The distance and direction of a signed offset.  The least value stands for
minus zero. -/
def splitOffset (v : Word) : Word × Bool :=
  if v = BitVec.intMin 32 then (0, true)
  else if v.msb then (-v, true)
  else (v, false)

/-- The absolute target of an offset from the program counter, which runs eight
bytes ahead, or four in Thumb code, and may count from a word boundary. -/
def branchTarget (e : Encoded) (offset : Imm) : Imm :=
  let address : Word := e.address.setWidth 32
  let pc :=
    if e.mode.thumb then
      if e.opcode.fromAlignedPc then (address + 4) &&& ~~~3#32 else address + 4
    else address + 8
  (pc + offset.word).setWidth 64

/-! ## Pieces -/

/-- Completes the register at field `i`. -/
def reportRegister (e : Encoded) (i : Nat) : Edit Operand :=
  .report (.ofRegister (registerAt e i) (accessAt e i))

/-- Completes an immediate. -/
def reportImmediate (v : Imm) : Edit Operand := .report (.ofImmediate v false)

/-- Completes a small unsigned immediate. -/
def reportNat (n : Nat) : Edit Operand := .report (.ofNat n)

/-- Completes an unsigned offset that may be subtracted. -/
def reportOffset (magnitude : Nat) (subtracted : Bool) : Edit Operand :=
  .report (.ofImmediate (BitVec.ofNat 64 magnitude) subtracted)

/-- Shifts the operand being worked on, unless there is nothing to shift. -/
def amendShift : Option Shift → List (Edit Operand)
  | none => []
  | some shift => [.amend (·.withShift shift)]

/-- The memory operand of a form at field `i`, accessed as the table says. -/
def memoryOperand (e : Encoded) (i : Nat) (m : Memory) : Operand :=
  { value := .memory m, access := nominalAccessAt e i }

/-- A memory operand on a base register with an offset, which is written down only where it
is shown. -/
def offsetOperand (e : Encoded) (i : Nat) (base : Register) (shown : Bool) (displacement : Word)
    (subtracted : Bool) : Operand :=
  if shown then { memoryOperand e i { base, displacement } with subtracted }
  else memoryOperand e i { base }

/-- Where an offset is not shown because there is none, it makes no difference. -/
theorem offsetOperand_eq {e : Encoded} {i : Nat} {base : Register} {shown : Bool}
    {displacement : Word} {subtracted : Bool}
    (h : shown = false → displacement = 0 ∧ subtracted = false) :
    offsetOperand e i base shown displacement subtracted =
      { memoryOperand e i { base, displacement } with subtracted } := by
  cases shown with
  | true => rfl
  | false =>
      obtain ⟨rfl, rfl⟩ := h rfl
      rfl

/-- A field on its own: a register is completed, or joins the open memory operand;
an immediate is completed, or becomes the displacement of the open one. -/
def plainEdits (e : Encoded) (i : Nat) : List (Edit Operand) :=
  match e.field i with
  | .vacant => []
  | .register id =>
    if id = 0 then []
    else
      let r := registerAt e i
      [.place (.ofRegister r (accessAt e i)) (Operand.modifyMemory (·.attach r))]
  | .immediate v =>
    let shown := if e.opcode.relative then branchTarget e v else v
    [.place (.ofImmediate shown false)
      (Operand.modifyMemory fun m => { m with displacement := v.word })]

/-- A memory form on a base register, or the plain field where there is none. -/
def onBase (e : Encoded) (i : Nat) (edits : Register → List (Edit Operand)) :
    List (Edit Operand) :=
  if e.isRegister i then edits (registerAt e i) else plainEdits e i

/-- A base register with a signed offset at the next field.  A zero is written down only if
it is shown, or if it is minus zero. -/
def signedOffsetEdits (e : Encoded) (i : Nat) (showZero : Bool) : List (Edit Operand) :=
  onBase e i fun base =>
    let (displacement, subtracted) := splitOffset (e.immediate (i + 1)).word
    [.bracket (offsetOperand e i base (subtracted || showZero || BitVec.slt 0 displacement)
      displacement subtracted)]

/-- An offset that is neither negative nor positive is zero. -/
theorem splitOffset_eq_zero {v : Word} (hAdded : (splitOffset v).2 = false)
    (hNotPositive : BitVec.slt 0 (splitOffset v).1 = false) : (splitOffset v).1 = 0 := by
  unfold splitOffset at hAdded hNotPositive ⊢
  split
  · rfl
  · next hLeast =>
    rw [if_neg hLeast] at hAdded hNotPositive
    split
    · next hNegative =>
      rw [if_pos hNegative] at hAdded
      contradiction
    · next hPositive =>
      rw [if_neg hPositive] at hNotPositive
      have hSign := BitVec.toInt_eq_msb_cond v
      rw [if_neg hPositive] at hSign
      refine BitVec.eq_of_toInt_eq ?_
      simp only [BitVec.slt, decide_eq_false_iff_not, BitVec.ofNat_eq_ofNat, BitVec.toInt_zero]
        at hNotPositive ⊢
      omega

/-- Whether a zero is shown makes no difference to a signed offset. -/
theorem signedOffsetEdits_eq (e : Encoded) (i : Nat) (showZero : Bool) :
    signedOffsetEdits e i showZero = onBase e i fun base =>
      let (displacement, subtracted) := splitOffset (e.immediate (i + 1)).word
      [.bracket { memoryOperand e i { base, displacement } with subtracted }] := by
  unfold signedOffsetEdits
  congr 1
  funext base
  refine congrArg (fun op => [Edit.bracket op]) (offsetOperand_eq fun hHidden => ?_)
  simp only [Bool.or_eq_false_iff] at hHidden
  exact ⟨splitOffset_eq_zero hHidden.1.1 hHidden.2, hHidden.1.1⟩

/-- A base register with an unsigned offset at the next field, in units. -/
def scaledOffsetEdits (e : Encoded) (i scale : Nat) : List (Edit Operand) :=
  onBase e i fun base =>
    let displacement := (e.immediate (i + 1)).word * BitVec.ofNat 32 scale
    [.bracket (memoryOperand e i { base, displacement })]

/-- The offset of addressing mode 3 on its own: a register or an immediate. -/
def mode3OffsetEdits (e : Encoded) (i : Nat) : List (Edit Operand) :=
  let mode := Mode3.ofWord (e.immediate (i + 1)).word
  let subtracted := mode.direction.isSubtract
  if e.registerId i = 0 then [reportOffset mode.offset subtracted]
  else [.report { Operand.ofRegister (registerAt e i) (accessAt e i) with subtracted }]

/-- Addressing mode 2.  An immediate offset of zero is not written down. -/
def mode2Edits (e : Encoded) (i : Nat) : List (Edit Operand) :=
  onBase e i fun base =>
    let mode := Mode2.ofWord (e.immediate (i + 2)).word
    if e.registerId (i + 1) = 0 then
      [.bracket (offsetOperand e i base (mode.offset != 0) (BitVec.ofNat 32 mode.offset)
        mode.direction.isSubtract)]
    else
      [.bracket { memoryOperand e i { base, index := registerAt e (i + 1) } with
        subtracted := mode.direction.isSubtract
        shift := (Shift.constant? mode.shift mode.offset).getD {} }]

/-- A zero is never subtracted in addressing mode 2. -/
theorem mode2Edits_eq (e : Encoded) (i : Nat) :
    mode2Edits e i = onBase e i fun base =>
      let mode := Mode2.ofWord (e.immediate (i + 2)).word
      if e.registerId (i + 1) = 0 then
        [.bracket { memoryOperand e i { base, displacement := BitVec.ofNat 32 mode.offset } with
          subtracted := mode.direction.isSubtract && mode.offset != 0 }]
      else
        [.bracket { memoryOperand e i { base, index := registerAt e (i + 1) } with
          subtracted := mode.direction.isSubtract
          shift := (Shift.constant? mode.shift mode.offset).getD {} }] := by
  unfold mode2Edits
  congr 1
  funext base
  dsimp only
  split
  · cases hShown : (Mode2.ofWord (e.immediate (i + 2)).word).offset != 0 with
    | true =>
        rw [Bool.and_true]
        rfl
    | false =>
        rw [Bool.and_false, bne_eq_false_iff_eq.mp hShown]
        rfl
  · rfl

/-- Addressing mode 3.  An immediate offset of zero is written down only if it is shown, or
if it is subtracted. -/
def mode3Edits (e : Encoded) (i : Nat) (showZero : Bool) : List (Edit Operand) :=
  onBase e i fun base =>
    let mode := Mode3.ofWord (e.immediate (i + 2)).word
    let subtracted := mode.direction.isSubtract
    if mode.indexing = .post then
      .bracket (memoryOperand e i { base }) :: mode3OffsetEdits e (i + 1)
    else if e.registerId (i + 1) = 0 then
      [.bracket (offsetOperand e i base (showZero || mode.offset != 0 || subtracted)
        (BitVec.ofNat 32 mode.offset) subtracted)]
    else
      [.bracket { memoryOperand e i { base, index := registerAt e (i + 1) } with subtracted }]

/-- Whether a zero is shown makes no difference in addressing mode 3. -/
theorem mode3Edits_eq (e : Encoded) (i : Nat) (showZero : Bool) :
    mode3Edits e i showZero = onBase e i fun base =>
      let mode := Mode3.ofWord (e.immediate (i + 2)).word
      let subtracted := mode.direction.isSubtract
      if mode.indexing = .post then
        .bracket (memoryOperand e i { base }) :: mode3OffsetEdits e (i + 1)
      else if e.registerId (i + 1) = 0 then
        [.bracket { memoryOperand e i { base, displacement := BitVec.ofNat 32 mode.offset } with
          subtracted }]
      else
        [.bracket { memoryOperand e i { base, index := registerAt e (i + 1) } with
          subtracted }] := by
  unfold mode3Edits
  congr 1
  funext base
  dsimp only
  rw [offsetOperand_eq]
  intro hHidden
  simp only [Bool.or_eq_false_iff, bne_eq_false_iff_eq] at hHidden
  exact ⟨congrArg (BitVec.ofNat 32) hHidden.1.2, hHidden.2⟩

/-- Addressing mode 5, with transfer units of `unit` bytes.  A zero is written down only if it
is shown, or if it is subtracted. -/
def mode5Edits (e : Encoded) (i unit : Nat) (showZero : Bool) : List (Edit Operand) :=
  onBase e i fun base =>
    let mode := Mode5.ofWord (e.immediate (i + 1)).word
    let subtracted := mode.direction.isSubtract
    [.bracket (offsetOperand e i base (showZero || mode.distance unit != 0 || subtracted)
      (BitVec.ofNat 32 (mode.distance unit)) subtracted)]

/-- Whether a zero is shown makes no difference in addressing mode 5. -/
theorem mode5Edits_eq (e : Encoded) (i unit : Nat) (showZero : Bool) :
    mode5Edits e i unit showZero = onBase e i fun base =>
      let mode := Mode5.ofWord (e.immediate (i + 1)).word
      [.bracket
        { memoryOperand e i { base, displacement := BitVec.ofNat 32 (mode.distance unit) } with
          subtracted := mode.direction.isSubtract }] := by
  unfold mode5Edits
  congr 1
  funext base
  dsimp only
  rw [offsetOperand_eq]
  intro hHidden
  simp only [Bool.or_eq_false_iff, bne_eq_false_iff_eq] at hHidden
  exact ⟨congrArg (BitVec.ofNat 32) hHidden.1.2, hHidden.2⟩

/-- A base and an index register, the index shifted left. -/
def indexedOperand (e : Encoded) (i : Nat) (operation : ShiftOperation) (amount : Nat) : Operand :=
  { memoryOperand e i
      { base := registerAt e i, index := registerAt e (i + 1), leftShift := amount } with
    shift := if amount = 0 then {} else (Shift.constant? operation amount).getD {} }

/-- The parts of the aggregate at field `i`; any other register is completed as it
is. -/
def partEdits (e : Encoded) (i : Nat) (parts : List Part) : List (Edit Operand) :=
  let r := registerAt e i
  if r.isAggregate then
    parts.flatMap fun part =>
      let operand := Edit.report (Operand.ofRegister (r.partOrSelf part) (accessAt e i))
      if (r.part? part).isSome then [operand] else [.note (r.partMissing part), operand]
  else [.note s!"[arm::mapping] {r.name} isn't a register tuple", reportRegister e i]

/-- The registers that lie the given steps after the one at field `i`.  If they run
out, only that one is completed. -/
def runEdits (e : Encoded) (i : Nat) (steps : List Nat) : List (Edit Operand) :=
  let first := registerAt e i
  match steps.mapM first.offset? with
  | some registers => registers.map fun r => .report (.ofRegister r (accessAt e i))
  | none =>
    [.note s!"[arm::mapping] list of {steps.length} starting at {first.name} runs out of registers",
      .report (.ofRegister first (accessAt e i))]

/-- A list of vector registers. -/
def vectorListEdits (e : Encoded) (i : Nat) : VectorShape → List (Edit Operand)
  | .one => [reportRegister e i]
  | .two => partEdits e i [.double 0, .double 1]
  | .twoSpaced => partEdits e i [.double 0, .double 2]
  | shape => runEdits e i shape.steps

/-- The registers of a list that starts at field `i` and runs to the last field. -/
def registerListEdits (e : Encoded) (i : Nat) : List (Edit Operand) :=
  (List.range' i (e.fields.length - i)).filterMap fun k =>
    let r := registerAt e k
    if r.isSome then some (.report (.ofRegister r (nominalAccessAt e k))) else none

/-- A banked register; an encoding that names none is completed as an immediate. -/
def bankedEdits (e : Encoded) (i : Nat) : List (Edit Operand) :=
  let v := e.immediate i
  match if v.toNat < 256 then BankedRegister.ofCode? v.toNat else none with
  | some r => [.report { value := .status (.banked r), access := accessAt e i }]
  | none =>
    [.note ("[arm::mapping] unknown banked register " ++ Hex.ofNat v.toNat), reportImmediate v]

/-- An expanded vector immediate; a pattern that stands for nothing is completed as
it is. -/
def vectorImmediateEdits (e : Encoded) (i : Nat) : List (Edit Operand) :=
  let v := e.immediate i
  match VectorImmediate.expand? v.word with
  | some x => [reportNat x.value]
  | none =>
    [.note s!"[arm::mapping] vmov immediate {Hex.ofNat v.toNat} isn't expanded",
      reportImmediate v]

/-- A rotated immediate: its value if it is encoded canonically, or else its byte
and its rotation. -/
def rotatedEdits (e : Encoded) (i : Nat) : List (Edit Operand) :=
  let w := (e.immediate i).word
  let value := RotatedImmediate.expand w
  if RotatedImmediate.encode? value = some w.toNat then [reportNat value.toNat]
  else [reportNat (w.toNat % 256), reportNat (RotatedImmediate.shownRotation w)]

/-- The shift of a saturating operation: bit 5 asks for an arithmetic right shift
by the low five bits, otherwise they are a left shift. -/
def saturationShift? (w : Word) : Option Shift :=
  let amount := w.toNat % 32
  if w.toNat / 32 % 2 = 1 then some ⟨.asr, shiftDistance amount⟩
  else if amount = 0 then none
  else some ⟨.lsl, amount⟩

/-! ## Forms -/

/-- What an operand form at field `i` contributes. -/
def OperandForm.edits (e : Encoded) (i : Nat) : OperandForm → List (Edit Operand)
  | .plain => plainEdits e i
  | .fixedShift code amount => amendShift (Shift.constant? (.ofCode code) amount)
  | .registerShifted =>
    let shifter := Shifter.ofWord (e.immediate (i + 2)).word
    [.report { Operand.ofRegister (registerAt e i) (accessAt e i) with
      shift := .byRegister shifter.operation (registerAt e (i + 1)) }]
  | .constantShifted | .wideConstantShifted =>
    let shifter := Shifter.ofWord (e.immediate (i + 1)).word
    [.report { Operand.ofRegister (registerAt e i) (accessAt e i) with
      shift := (Shift.constant? shifter.operation shifter.amount).getD {} }]
  | .rotatedImmediate => rotatedEdits e i
  | .timesFour => [reportImmediate (e.immediate i * 4)]
  | .shiftDistance => [reportNat (Arm.shiftDistance (e.immediate i).word.toNat)]
  | .bitfield =>
    let field := Bitfield.ofInvertedMask (e.immediate i).word
    [reportNat field.low, reportNat field.width]
  | .coprocessor => [.report (.ofValue (.coprocessor (e.immediate i).byte))]
  | .coprocessorRegister => [.report (.ofValue (.coprocessorRegister (e.immediate i).byte))]
  | .registerList => registerListEdits e i
  | .corePair => partEdits e i [.core 0, .core 1]
  | .floatImmediate => [.report (.ofValue (.float (.ofByte (e.immediate i).byte)))]
  | .vectorIndex => [.amend ({ · with vectorIndex := some (e.immediate i).byte })]
  | .lane => [.amend ({ · with lane := some (e.immediate i).byte })]
  | .vectorImmediate => vectorImmediateEdits e i
  | .vectorList shape _ => vectorListEdits e i shape
  | .quadList count => partEdits e i ([.quad 0, .quad 1, .quad 2, .quad 3].take count)
  | .complexRotation angle start =>
    [reportImmediate (e.immediate i * BitVec.ofNat 64 angle + BitVec.ofNat 64 start)]
  | .baseOnly => [.bracket (memoryOperand e i { base := registerAt e i })]
  | .coprocessorOption => [reportImmediate (e.immediate i)]
  | .postOffset =>
    let n := (e.immediate i).toNat
    [reportOffset (n % 256) (n / 256 % 2 == 0)]
  | .postWordOffset =>
    let n := (e.immediate i).toNat
    [reportOffset (n % 256 * 4) (n / 256 % 2 == 0)]
  | .postRegister =>
    [.report { Operand.ofRegister (registerAt e i) (accessAt e i) with
      subtracted := e.immediate (i + 1) == 0 }]
  | .literal =>
    let (displacement, subtracted) := splitOffset (e.immediate i).word
    [.bracket { memoryOperand e i { base := .pc, displacement } with subtracted }]
  | .scaledOffset scale => scaledOffsetEdits e i scale
  | .stackOffset => scaledOffsetEdits e i 4
  | .indexed =>
    onBase e i fun base => [.bracket (memoryOperand e i { base, index := registerAt e (i + 1) })]
  | .mode2 => mode2Edits e i
  | .mode2Offset =>
    let mode := Mode2.ofWord (e.immediate (i + 1)).word
    let subtracted := mode.direction.isSubtract
    if e.registerId i = 0 then [reportOffset mode.offset subtracted]
    else
      [.report { Operand.ofRegister (registerAt e i) (accessAt e i) with
        subtracted, shift := (Shift.constant? mode.shift mode.offset).getD {} }]
  | .mode3 showZero => mode3Edits e i showZero
  | .mode3Offset => mode3OffsetEdits e i
  | .mode5 showZero => mode5Edits e i 4 showZero
  | .mode5Half showZero => mode5Edits e i 2 showZero
  | .mode6 =>
    [.bracket (memoryOperand e i
      { base := registerAt e i, alignment := (e.immediate (i + 1)).word.toNat })]
  | .mode6Offset => if e.registerId i = 0 then [] else [reportRegister e i]
  | .signedOffset showZero | .shortOffset showZero | .shortWordOffset showZero =>
    signedOffsetEdits e i showZero
  | .shortPostOffset | .shortPostWordOffset =>
    let (magnitude, subtracted) := splitOffset (e.immediate i).word
    [reportOffset magnitude.toNat subtracted]
  | .exclusiveOffset =>
    [.bracket (memoryOperand e i
      { base := registerAt e i, displacement := (e.immediate (i + 1)).word * 4 })]
  | .shiftedIndex => [.bracket (indexedOperand e i .lsl (e.immediate (i + 2)).word.toNat)]
  | .tableByte => [.bracket (indexedOperand e i .lsl 0)]
  | .tableHalf => [.bracket (indexedOperand e i .lsl 1)]
  | .vectorOffsets shift => [.bracket (indexedOperand e i .uxtw shift)]
  | .label scale =>
    let offset := (e.immediate i).word <<< (scale % 32)
    if offset = BitVec.intMin 32 then [reportOffset 0 true]
    else [reportImmediate (offset.signExtend 64)]
  | .bankedRegister => bankedEdits e i
  | .statusMask =>
    [.report { value := .status (.ofMask e.mode.mClass (e.immediate i).word.toNat),
               access := .writes }]
  | .packLeft =>
    let amount := (e.immediate i).word.toNat
    amendShift (if amount = 0 then none else some ⟨.lsl, amount⟩)
  | .packRight => amendShift (some ⟨.asr, Arm.shiftDistance (e.immediate i).word.toNat⟩)
  | .plusOne => [reportImmediate (e.immediate i + 1)]
  | .endianness =>
    [.report (.ofValue (.endianness (if e.immediate i = 0 then .little else .big)))]
  | .saturation => [reportNat (if e.immediate i = 1 then 48 else 64)]
  | .saturationShift => amendShift (saturationShift? (e.immediate i).word)
  | .byteRotation =>
    let w := (e.immediate i).word
    amendShift (if w = 0 then none else some ⟨.ror, (w * 8).toNat⟩)
  | .fractionBits size => [reportImmediate (BitVec.ofNat 64 size - e.immediate i)]

end OperandReport.Arm
