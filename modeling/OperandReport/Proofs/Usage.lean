import OperandReport.Proofs.Footprint
import OperandReport.Session

/-!
# Register usage

What an operand reads and what it writes is said here operand by operand, without
regard to the operands around it.  The summary of a report is then the deduplication
of the implicit registers followed by those of all operands in order, on either
architecture; the summary of an instruction is the image of it.

## Main results

* `Arm.Operand.recordIn_eq`, `Power.Operand.recordIn_eq`: one operand.
* `Arm.Report.mem_usage`: which registers the summary of a report lists.
* `usage_listsOnce`: the register summary of every report, and of every instruction.
-/

namespace OperandReport

namespace Arm

/-- The register that holds a shift distance: the low 16 bits of the value of a shift by
a register are its number, if that number names a register. -/
def Shift.distanceRegisters (s : Shift) : List Register :=
  let id := s.value % 65536
  if s.kind.isByRegister = true ∧ id ≠ 0 ∧ (Register.family? ⟨id⟩).isSome = true then [⟨id⟩]
  else []

/-- The registers that an operand reads, in the order in which they are listed. -/
def Operand.readRegisters (op : Operand) : List Register :=
  (match op.value with
    | .register r => if op.access.read then [r] else []
    | .memory m =>
      (if m.base.isSome then [m.base] else []) ++ (if m.index.isSome then [m.index] else [])
    | _ => []) ++ op.shift.distanceRegisters

/-- The registers that an operand writes; a base is written if it is written back. -/
def Operand.writtenRegisters (writeback : Bool) (op : Operand) : List Register :=
  match op.value with
  | .register r => if op.access.write then [r] else []
  | .memory m => if m.base.isSome && writeback then [m.base] else []
  | _ => []

/-- A shift names the register that holds its distance, or none. -/
theorem Shift.register?_toList (s : Shift) : s.register?.toList = s.distanceRegisters := by
  unfold register? distanceRegisters
  cases hKind : s.kind.isByRegister with
  | false => simp
  | true =>
      by_cases hZero : s.value % 65536 = 0
      · simp [hZero, Register.ofId?, Register.isSome]
      · cases hFamily : Register.family? ⟨s.value % 65536⟩ with
        | none => simp [hZero, hFamily, Register.ofId?]
        | some family => simp [hZero, hFamily, Register.ofId?, Register.isSome]

/-- Recording an operand mentions what it reads and what it writes. -/
theorem Operand.recordIn_eq (writeback : Bool) (p : Footprint Register) (op : Operand) :
    recordIn writeback p op = p.mentionAll op.readRegisters (op.writtenRegisters writeback) := by
  -- The shift is recorded after the value, from whatever the value left.
  have hShift : ∀ q : Footprint Register,
      recordIn writeback q { op with value := .unset } =
        q.mentionAll op.shift.distanceRegisters [] := by
    intro q
    rw [← Shift.register?_toList]
    unfold recordIn
    dsimp only
    cases op.shift.register? with
    | none => rfl
    | some r => rfl
  unfold readRegisters writtenRegisters
  rw [← Footprint.mentionAll_mentionAll, ← hShift]
  rcases op with ⟨value, access, shift, vectorIndex, lane, subtracted⟩
  cases value with
  | register r =>
      dsimp only
      rw [← Footprint.record_eq]
      rfl
  | memory m =>
      dsimp only
      rw [← Footprint.record_base_index]
      rfl
  | _ => rfl

/-- The summary lists what is implicitly read and what an operand reads, and the same for
what is written. -/
theorem Report.mem_usage (report : Report) (r : Register) :
    (r ∈ report.usage.reads ↔ r ∈ report.effects.reads.items ∨
      ∃ op ∈ report.operands.toList, r ∈ op.readRegisters) ∧
    (r ∈ report.usage.writes ↔ r ∈ report.effects.writes.items ∨
      ∃ op ∈ report.operands.toList, r ∈ op.writtenRegisters report.effects.writeback) := by
  rw [usage, Footprint.foldl_record (Operand.recordIn_eq _), Footprint.mentionAll_ofImplicit]
  simp only [List.mem_eraseDups, List.mem_append, List.mem_flatMap, and_self]

/-- The summary lists no register twice. -/
theorem Report.nodup_usage (report : Report) :
    report.usage.reads.Nodup ∧ report.usage.writes.Nodup := by
  rw [usage, Footprint.foldl_record (Operand.recordIn_eq _), Footprint.mentionAll_ofImplicit]
  exact ⟨Footprint.nodup_eraseDups _, Footprint.nodup_eraseDups _⟩

end Arm

namespace Power

/-- The registers that an operand reads, in the order in which they are listed. -/
def Operand.readRegisters (op : Operand) : List Register :=
  match op.value with
  | .register r => if op.access.read then [r] else []
  | .memory m =>
    (if m.base.isSome then [m.base] else []) ++ (if m.index.isSome then [m.index] else [])
  | _ => []

/-- The registers that an operand writes; a base is written if it is written back. -/
def Operand.writtenRegisters (writeback : Bool) (op : Operand) : List Register :=
  match op.value with
  | .register r => if op.access.write then [r] else []
  | .memory m => if m.base.isSome && writeback then [m.base] else []
  | _ => []

/-- Recording an operand mentions what it reads and what it writes. -/
theorem Operand.recordIn_eq (writeback : Bool) (p : Footprint Register) (op : Operand) :
    recordIn writeback p op = p.mentionAll op.readRegisters (op.writtenRegisters writeback) := by
  unfold recordIn readRegisters writtenRegisters
  cases op.value with
  | register r => exact Footprint.record_eq p r op.access
  | memory m =>
      exact Footprint.record_base_index p m.base m.index m.base.isSome m.index.isSome writeback
  | _ => rfl

end Power

/-- The summary of every report lists the implicit registers and those of its operands
once, in the order of first occurrence, and the summary of an instruction is its
image. -/
theorem usage_listsOnce :
    (∀ report : Arm.Report,
      ListsOnce report.effects.reads.items
        (report.operands.toList.flatMap Arm.Operand.readRegisters) report.usage.reads ∧
      ListsOnce report.effects.writes.items
        (report.operands.toList.flatMap
          (Arm.Operand.writtenRegisters report.effects.writeback)) report.usage.writes) ∧
    (∀ report : Power.Report,
      ListsOnce report.effects.reads.items
        (report.operands.toList.flatMap Power.Operand.readRegisters) report.usage.reads ∧
      ListsOnce report.effects.writes.items
        (report.operands.toList.flatMap
          (Power.Operand.writtenRegisters report.effects.writeback)) report.usage.writes) ∧
    (∀ (e : Arm.Encoded) (report : Arm.Report),
      Decoded.usage (.arm { e with report := some report }) =
        .ok ⟨report.usage.reads.map .arm, report.usage.writes.map .arm⟩) ∧
    ∀ (e : Power.Encoded) (report : Power.Report),
      Decoded.usage (.power { e with report := some report }) =
        .ok ⟨report.usage.reads.map .power, report.usage.writes.map .power⟩ := by
  refine ⟨?_, ?_, fun _ _ => rfl, fun _ _ => rfl⟩
  · intro report
    rw [Arm.Report.usage, Footprint.foldl_record (Arm.Operand.recordIn_eq _),
      Footprint.mentionAll_ofImplicit]
    exact ⟨ListsOnce.of_eraseDups _ _, ListsOnce.of_eraseDups _ _⟩
  · intro report
    rw [Power.Report.usage, Footprint.foldl_record (Power.Operand.recordIn_eq _),
      Footprint.mentionAll_ofImplicit]
    exact ⟨ListsOnce.of_eraseDups _ _, ListsOnce.of_eraseDups _ _⟩

end OperandReport
