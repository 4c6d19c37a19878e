import OperandReport.Proofs.Arm.Magnitude
import OperandReport.Proofs.Arm.Shifts

/-!
# Coherent operands

An operand says one thing in several places: the offset of a memory operand is an index
register or a displacement, its sign is the flag of the operand or the sign of the
displacement, and the left shift of the index stands next to the shift of the operand.  In a
coherent operand these places agree.

Whatever their fields are, forms complete coherent operands.  A form that looks back may
overwrite a shift that a left shift of an index has to agree with; but no template has two
sites that ask for a shift, so where there is such a form no index is shifted.

## Main results

* `OperandForm.complete_coherent`: forms complete coherent operands.
* `take_fill_coherent`: the operands of a filled report are coherent.
-/

namespace OperandReport.Arm

/-- The value is a number or another constant, so that it can only be read. -/
def Value.isConstant : Value → Bool
  | immediate _ | coprocessorRegister _ | coprocessor _ | float _ | endianness _ => true
  | unset | register _ | memory _ | status _ => false

/-- Index registers are not scaled any further, there is at most one offset, it has at most
one sign, and an operand with an alignment has no offset. -/
structure Memory.Coherent (m : Memory) (subtracted : Bool) : Prop where
  scale : m.scale = 1
  oneOffset : m.index.isSome = true → m.displacement = 0
  oneSign : subtracted = true → 0 ≤ m.displacement.toInt
  aligned : m.alignment ≠ 0 → m.index.isSome = false ∧ m.displacement = 0

/-- A left shift of the index is the shift of the operand. -/
def Memory.ShiftedAs (m : Memory) (s : Shift) : Prop :=
  m.leftShift ≠ 0 → (s.kind = .lsl ∨ s.kind = .uxtw) ∧ s.value = m.leftShift

namespace Operand

/-- The operand is something, constants are read, and the parts of a memory operand agree. -/
structure Coherent (op : Operand) : Prop where
  isSet : op.value ≠ .unset
  constant : op.value.isConstant = true → op.access = .reads
  memory : ∀ m, op.value = .memory m → m.Coherent op.subtracted
  shifted : ∀ m, op.value = .memory m → m.ShiftedAs op.shift

/-- No index is shifted to the left. -/
def Unscaled (op : Operand) : Prop := ∀ m, op.value = .memory m → m.leftShift = 0

theorem Coherent.ofRegister {op : Operand} {r : Register} (h : op.value = .register r) :
    op.Coherent := by
  constructor <;> simp [h, Value.isConstant]

theorem Coherent.ofConstant {op : Operand} (h : op.value.isConstant = true)
    (hRead : op.access = .reads) : op.Coherent where
  isSet hUnset := by simp [hUnset, Value.isConstant] at h
  constant _ := hRead
  memory m hMemory := by simp [hMemory, Value.isConstant] at h
  shifted m hMemory := by simp [hMemory, Value.isConstant] at h

theorem Coherent.ofMemory {op : Operand} {m : Memory} (h : op.value = .memory m)
    (hParts : m.Coherent op.subtracted) (hShift : m.ShiftedAs op.shift) : op.Coherent where
  isSet := by simp [h]
  constant := by simp [h, Value.isConstant]
  memory _ hEq := Value.memory.inj (h.symm.trans hEq) ▸ hParts
  shifted _ hEq := Value.memory.inj (h.symm.trans hEq) ▸ hShift

/-- An index cannot be shifted where the operand is not. -/
theorem Coherent.unscaled {op : Operand} (hCoherent : op.Coherent) (hShift : op.shift = {}) :
    op.Unscaled := by
  intro m hMemory
  refine Classical.byContradiction fun hScaled => ?_
  have hKind := (hCoherent.shifted m hMemory hScaled).1
  rw [hShift] at hKind
  rcases hKind with hKind | hKind
  · contradiction
  · contradiction

/-- While no index is shifted, the shift of the operand may change. -/
theorem Coherent.withShift {op : Operand} (hCoherent : op.Coherent) (hUnscaled : op.Unscaled)
    (s : Shift) : (op.withShift s).Coherent where
  isSet := hCoherent.isSet
  constant := hCoherent.constant
  memory := hCoherent.memory
  shifted m hMemory hScaled := absurd (hUnscaled m hMemory) hScaled

end Operand

/-! ## Memory operands -/

namespace Memory

theorem shiftedAs_of_unscaled {m : Memory} (h : m.leftShift = 0) (s : Shift) : m.ShiftedAs s :=
  fun hScaled => absurd h hScaled

/-- A base with a displacement that has no sign of its own, if the operand is subtracted. -/
theorem coherent_displaced {base : Register} {displacement : Word} {subtracted : Bool}
    (h : subtracted = true → displacement.toNat < 0x80000000) :
    Coherent { base, displacement } subtracted where
  scale := rfl
  oneOffset := nofun
  oneSign hSubtracted := by
    show 0 ≤ displacement.toInt
    have hSmall := h hSubtracted
    rw [BitVec.toInt_eq_toNat_of_lt (by omega)]
    exact Int.natCast_nonneg _
  aligned := by simp

theorem coherent_indexed (base index : Register) (leftShift : Nat) (subtracted : Bool) :
    Coherent { base, index, leftShift } subtracted where
  scale := rfl
  oneOffset _ := rfl
  oneSign _ := (by decide : 0 ≤ (0 : Word).toInt)
  aligned := by simp

theorem coherent_aligned (base : Register) (alignment : Nat) (subtracted : Bool) :
    Coherent { base, alignment } subtracted where
  scale := rfl
  oneOffset _ := rfl
  oneSign _ := (by decide : 0 ≤ (0 : Word).toInt)
  aligned _ := ⟨rfl, rfl⟩

end Memory

/-! ## Pieces -/

section Pieces

open Edit (Complete)

variable {e : Encoded} {i : Nat}

theorem coherent_ofImmediate (v : Imm) (subtracted : Bool) :
    (Operand.ofImmediate v subtracted).Coherent := .ofConstant rfl rfl

/-- A displacement that is small, or that is not subtracted. -/
theorem coherent_displacedOperand {base : Register} {displacement : Word} {subtracted : Bool}
    (h : subtracted = true → displacement.toNat < 0x80000000) :
    Operand.Coherent { memoryOperand e i { base, displacement } with subtracted } :=
  .ofMemory rfl (Memory.coherent_displaced h) (Memory.shiftedAs_of_unscaled rfl _)

/-- An index register that is not shifted to the left. -/
theorem coherent_indexOperand (base index : Register) (subtracted : Bool) (shift : Shift) :
    Operand.Coherent { memoryOperand e i { base, index } with subtracted, shift } :=
  .ofMemory rfl (Memory.coherent_indexed base index 0 subtracted)
    (Memory.shiftedAs_of_unscaled rfl shift)

/-- The displacement of a packed offset has no sign of its own. -/
theorem toNat_ofNat_lt {n : Nat} (h : n < 0x80000000) : (BitVec.ofNat 32 n).toNat < 0x80000000 := by
  rw [BitVec.toNat_ofNat]
  omega

/-- A left shift by a constant is the distance that was asked for, and so is an extension. -/
theorem coherent_indexedOperand {operation : ShiftOperation}
    (hOperation : operation = .lsl ∨ operation = .uxtw) (amount : Nat) :
    (indexedOperand e i operation amount).Coherent := by
  refine .ofMemory rfl (Memory.coherent_indexed _ _ _ _) fun hScaled => ?_
  change amount ≠ 0 at hScaled
  rcases hOperation with rfl | rfl
  · simp [indexedOperand, Shift.constant?, hScaled]
  · simp [indexedOperand, Shift.constant?, shiftDistance, ShiftKind.ofOperation, hScaled]

theorem coherent_plainEdits : Complete Operand.Coherent (plainEdits e i) := by
  unfold plainEdits
  split
  · exact .nil
  · split
    · exact .nil
    · exact .place (.ofRegister rfl) _
  · exact .place (coherent_ofImmediate _ _) _

/-- A form on a base register is coherent where it is so on every base. -/
theorem coherent_onBase {edits : Register → List (Edit Operand)}
    (h : ∀ base, Complete Operand.Coherent (edits base)) :
    Complete Operand.Coherent (onBase e i edits) := by
  unfold onBase
  split
  · exact h _
  · exact coherent_plainEdits

theorem coherent_signedOffsetEdits (showZero : Bool) :
    Complete Operand.Coherent (signedOffsetEdits e i showZero) := by
  rw [signedOffsetEdits_eq]
  exact coherent_onBase fun _ => .bracket (coherent_displacedOperand fun _ => splitOffset_lt _)

theorem coherent_scaledOffsetEdits (scale : Nat) :
    Complete Operand.Coherent (scaledOffsetEdits e i scale) :=
  coherent_onBase fun _ => .bracket (coherent_displacedOperand nofun)

theorem coherent_mode2Edits : Complete Operand.Coherent (mode2Edits e i) := by
  rw [mode2Edits_eq]
  refine coherent_onBase fun base => ?_
  dsimp only
  split
  · refine .bracket (coherent_displacedOperand fun _ => toNat_ofNat_lt ?_)
    simp only [Mode2.ofWord]
    omega
  · exact .bracket (coherent_indexOperand _ _ _ _)

theorem coherent_mode3OffsetEdits : Complete Operand.Coherent (mode3OffsetEdits e i) := by
  unfold mode3OffsetEdits
  dsimp only
  split
  · exact .report (coherent_ofImmediate _ _)
  · exact .report (.ofRegister rfl)

theorem coherent_mode3Edits (showZero : Bool) :
    Complete Operand.Coherent (mode3Edits e i showZero) := by
  rw [mode3Edits_eq]
  refine coherent_onBase fun base => ?_
  dsimp only
  split
  · exact .cons (.bracket (coherent_displacedOperand nofun)) coherent_mode3OffsetEdits
  · split
    · refine .bracket (coherent_displacedOperand fun _ => toNat_ofNat_lt ?_)
      simp only [Mode3.ofWord]
      omega
    · exact .bracket (coherent_indexOperand _ _ _ _)

theorem coherent_mode5Edits {unit : Nat} (h : unit ≤ 4) (showZero : Bool) :
    Complete Operand.Coherent (mode5Edits e i unit showZero) := by
  rw [mode5Edits_eq]
  refine coherent_onBase fun base => ?_
  refine .bracket (coherent_displacedOperand fun _ => toNat_ofNat_lt ?_)
  have hOffset : (Mode5.ofWord (e.immediate (i + 1)).word).offset ≤ 255 := by
    simp only [Mode5.ofWord]
    omega
  have hProduct := Nat.mul_le_mul hOffset h
  rw [Mode5.distance]
  omega

theorem coherent_registerListEdits : Complete Operand.Coherent (registerListEdits e i) := by
  refine Complete.filterMap fun k edit hEdit => ?_
  dsimp only at hEdit
  split at hEdit
  · cases hEdit
    exact .report (.ofRegister rfl)
  · contradiction

end Pieces

/-! ## Forms -/

namespace OperandForm

open Edit (Complete)

variable {e : Encoded} {i : Nat} {form : OperandForm}

/-- The form overwrites the shift of the operand before it. -/
def overwritesShift : OperandForm → Bool
  | fixedShift .. | packLeft | packRight | saturationShift | byteRotation => true
  | _ => false

/-- A form completes coherent operands. -/
theorem complete_coherent : Complete Operand.Coherent (form.edits e i) := by
  cases hLooksBack : form.looksBack with
  | true =>
      intro op hOp
      rw [form.completedBy_of_looksBack e i hLooksBack] at hOp
      contradiction
  | false =>
      cases form with
      | plain => exact coherent_plainEdits
      | registerList => exact coherent_registerListEdits
      | scaledOffset | stackOffset => exact coherent_scaledOffsetEdits _
      | signedOffset | shortOffset | shortWordOffset => exact coherent_signedOffsetEdits _
      | mode2 => exact coherent_mode2Edits
      | mode3 => exact coherent_mode3Edits _
      | mode3Offset => exact coherent_mode3OffsetEdits
      | mode5 => exact coherent_mode5Edits (by decide) _
      | mode5Half => exact coherent_mode5Edits (by decide) _
      | corePair | quadList => exact complete_partEdits fun _ _ => .ofRegister rfl
      | vectorList => exact complete_vectorListEdits fun _ _ => .ofRegister rfl
      | registerShifted | constantShifted | wideConstantShifted | postRegister =>
          exact .report (.ofRegister rfl)
      | timesFour | shiftDistance | coprocessor | coprocessorRegister | floatImmediate
      | complexRotation | coprocessorOption | postOffset | postWordOffset | shortPostOffset
      | shortPostWordOffset | plusOne | endianness | saturation | fractionBits =>
          exact .report (.ofConstant rfl rfl)
      | bitfield =>
          exact .cons (.report (coherent_ofImmediate _ _)) (.report (coherent_ofImmediate _ _))
      | statusMask =>
          refine .report ?_
          constructor <;> simp [Value.isConstant]
      | baseOnly => exact .bracket (coherent_displacedOperand nofun)
      | exclusiveOffset => exact .bracket (coherent_displacedOperand nofun)
      | literal => exact .bracket (coherent_displacedOperand fun _ => splitOffset_lt _)
      | mode6 =>
          exact .bracket (.ofMemory rfl (Memory.coherent_aligned _ _ _)
            (Memory.shiftedAs_of_unscaled rfl _))
      | indexed => exact coherent_onBase fun _ => .bracket (coherent_indexOperand _ _ _ _)
      | shiftedIndex | tableByte | tableHalf =>
          exact .bracket (coherent_indexedOperand (.inl rfl) _)
      | vectorOffsets => exact .bracket (coherent_indexedOperand (.inr rfl) _)
      | rotatedImmediate =>
          show Complete _ (rotatedEdits e i)
          unfold rotatedEdits
          dsimp only
          split
          · exact .report (coherent_ofImmediate _ _)
          · exact .cons (.report (coherent_ofImmediate _ _)) (.report (coherent_ofImmediate _ _))
      | vectorImmediate =>
          show Complete _ (vectorImmediateEdits e i)
          unfold vectorImmediateEdits
          dsimp only
          split
          · exact .report (coherent_ofImmediate _ _)
          · exact .cons (.note _) (.report (coherent_ofImmediate _ _))
      | bankedRegister =>
          show Complete _ (bankedEdits e i)
          unfold bankedEdits
          dsimp only
          split
          · refine .report ?_
            constructor <;> simp [Value.isConstant]
          · exact .cons (.note _) (.report (coherent_ofImmediate _ _))
      | mode2Offset =>
          unfold edits
          dsimp only
          split
          · exact .report (coherent_ofImmediate _ _)
          · exact .report (.ofRegister rfl)
      | mode6Offset =>
          show Complete _ (if e.registerId i = 0 then [] else [reportRegister e i])
          split
          · exact .nil
          · exact .report (.ofRegister rfl)
      | label scale =>
          unfold edits
          dsimp only
          split
          · exact .report (coherent_ofImmediate _ _)
          · exact .report (coherent_ofImmediate _ _)
      | _ => contradiction

/-- A form that does not overwrite a shift keeps all operands coherent. -/
theorem maintains_coherent (hForm : form.overwritesShift = false) :
    ∀ edit ∈ form.edits e i, edit.Maintains Operand.Coherent := by
  cases hLooksBack : form.looksBack with
  | false =>
      exact Edit.maintains_of_complete (form.contributes e i hLooksBack).additive
        complete_coherent
  | true =>
      cases form with
      | vectorIndex | lane =>
          intro edit hEdit
          rw [List.mem_singleton.mp hEdit]
          exact fun op h => ⟨h.isSet, h.constant, h.memory, h.shifted⟩
      | _ => contradiction

/-- While no index is shifted, a form that shifts no index keeps all operands coherent. -/
theorem maintains_unscaled (hKnown : AllKnown e) (hForm : form.mayShift = false) :
    ∀ edit ∈ form.edits e i, edit.Maintains fun op => op.Coherent ∧ op.Unscaled := by
  cases hLooksBack : form.looksBack with
  | false =>
      refine Edit.maintains_of_complete (form.contributes e i hLooksBack).additive ?_
      intro op hOp
      have hCoherent := complete_coherent op hOp
      exact ⟨hCoherent, hCoherent.unscaled (complete_unshifted hKnown hForm op hOp)⟩
  | true =>
      have hShift : ∀ (shift? : Option Shift), ∀ edit ∈ amendShift shift?,
          edit.Maintains fun op => op.Coherent ∧ op.Unscaled := by
        intro shift? edit hEdit
        cases shift? with
        | none => contradiction
        | some s =>
            rw [List.mem_singleton.mp hEdit]
            exact fun op h => ⟨h.1.withShift h.2 s, h.2⟩
      cases form with
      | vectorIndex | lane =>
          intro edit hEdit
          rw [List.mem_singleton.mp hEdit]
          exact fun op h => ⟨⟨h.1.isSet, h.1.constant, h.1.memory, h.1.shifted⟩, h.2⟩
      | packRight => exact hShift (some _)
      | fixedShift | packLeft | saturationShift | byteRotation => exact hShift _
      | _ => contradiction

theorem asksForShift_of_overwritesShift (h : form.overwritesShift = true) :
    form.asksForShift = true ∧ form.mayShift = false := by
  cases form <;> first | exact ⟨rfl, rfl⟩ | contradiction

end OperandForm

/-! ## Filled reports -/

/-- All operands of a filled report are coherent. -/
theorem Report.coherent_of_fill {e : Encoded} {report : Report} (hTable : e.opcode ∈ templates)
    (hKnown : AllKnown e) (h : (fill e).result = .ok report) :
    ∀ op ∈ report.operands.toList, op.Coherent := by
  by_cases hOverwrites : ∃ form i, .operand form i ∈ e.opcode.sites ∧ form.overwritesShift = true
  · obtain ⟨form, i, hSite, hForm⟩ := hOverwrites
    obtain ⟨hAsks, hOwn⟩ := OperandForm.asksForShift_of_overwritesShift hForm
    -- The site that overwrites a shift is the only one that asks for one.
    have hOthers : ∀ other j, .operand other j ∈ e.opcode.sites → other.mayShift = false := by
      intro other j hOther
      refine Bool.eq_false_iff.mpr fun hMay => ?_
      have hAlso : (Site.operand other j).asksForShift = true := by
        cases other <;> first | rfl | contradiction
      cases eq_of_asksForShift hTable hSite hOther hAsks hAlso
      rw [hOwn] at hMay
      contradiction
    intro op hOp
    exact (fill_maintains (p := fun op => op.Coherent ∧ op.Unscaled)
      (fun other j hOther => OperandForm.maintains_unscaled hKnown (hOthers other j hOther))
      h op hOp).1
  · refine fill_maintains (fun form i hSite => OperandForm.maintains_coherent ?_) h
    exact Bool.eq_false_iff.mpr fun hForm => hOverwrites ⟨form, i, hSite, hForm⟩

/-- Whatever the fields of an accepted instruction are, every operand of its filled report is
coherent. -/
theorem take_fill_coherent {e : Encoded} {insn filled : Instruction}
    (hTable : e.opcode ∈ templates) (hBuild : Instruction.build e true = .ok insn)
    (hTake : (insn.take .fill).result = .ok filled) :
    ∃ report : Report, filled = { e with report := some report } ∧
      ∀ op ∈ report.operands.toList, op.Coherent := by
  have hKnown : AllKnown e := ofId?_of_build hBuild
  obtain ⟨_, rfl⟩ := takes_of_build hBuild
  obtain ⟨report, hFill, rfl⟩ := map_eq_ok_iff.mp hTake
  exact ⟨report, rfl, Report.coherent_of_fill hTable hKnown hFill⟩

/-- A load from a base with an index register that is shifted left by two. -/
def loadShiftedIndex : Encoded where
  opcode := (templates.find? (·.name == "t2LDRs")).get (by decide +kernel)
  fields := [.register 32, .register 33, .register 34, .immediate 2, .immediate 14, .register 0]

/-- The left shift of the index is the shift of the memory operand. -/
theorem take_fill_loadShiftedIndex :
    ∃ report : Report,
      (Instruction.take { loadShiftedIndex with report := some (default : Report) }
        .fill).result = .ok { loadShiftedIndex with report := some report } ∧
      report.operands.toList.map Operand.value = [.register ⟨32⟩,
        .memory { base := ⟨33⟩, index := ⟨34⟩, leftShift := 2 }] ∧
      ∀ op ∈ report.operands.toList, op.Coherent := by
  have hTable : loadShiftedIndex.opcode ∈ templates := by
    dsimp only [loadShiftedIndex]
    exact List.get_find?_mem _
  obtain ⟨filled, hTake, hValues⟩ :
      ∃ filled, (Instruction.take { loadShiftedIndex with report := some (default : Report) }
        .fill).result = .ok filled ∧
        filled.report.map (·.operands.toList.map Operand.value) = some [.register ⟨32⟩,
          .memory { base := ⟨33⟩, index := ⟨34⟩, leftShift := 2 }] := ⟨_, rfl, rfl⟩
  obtain ⟨report, rfl, hCoherent⟩ :=
    take_fill_coherent (e := loadShiftedIndex) hTable rfl hTake
  exact ⟨report, hTake, Option.some.inj hValues, hCoherent⟩

end OperandReport.Arm
