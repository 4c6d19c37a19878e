import OperandReport.Proofs.Arm.Implicit
import OperandReport.Proofs.Arm.Steps
import OperandReport.Proofs.Usage

/-!
# Flag updates

Settling decides whether an instruction updates the flags: it looks through the
registers that are implicitly written, up to a terminator, and through the operands.
The register summary is made by another pass over the same report.  This module says
that the two agree.

The scan of the implicit registers stops early at a terminator, but the sets of a
filled report hold none.  The summary also lists a base register that is written back;
apart from bases it lists a flag register just when the flags are updated.

## Main results

* `Report.updatesFlags_iff`: what settling decides.
* `Effects.ImplicitOf.flagWritten_iff`: when a flag register is implicitly written.
* `take_fill_updatesFlags`: both together, and the agreement with the summary.
-/

namespace OperandReport.Arm

/-- The operand is a flag register that the instruction writes. -/
def Operand.NamesWrittenFlag (op : Operand) : Prop :=
  ∃ r ∈ flagRegisters, op.value = .register r ∧ op.access.write = true

theorem Operand.writesFlags_iff (op : Operand) :
    op.writesFlags = true ↔ op.NamesWrittenFlag := by
  unfold writesFlags NamesWrittenFlag
  cases op.value with
  | register r =>
      rw [Bool.and_eq_true, decide_eq_true_eq]
      constructor
      · rintro ⟨hWrite, hFlag⟩
        exact ⟨r, hFlag, rfl, hWrite⟩
      · rintro ⟨s, hFlag, hSame, hWrite⟩
        cases hSame
        exact ⟨hWrite, hFlag⟩
  | _ => simp

namespace Report

/-- The summary lists as written what is implicitly written, and what an operand
writes. -/
theorem mem_usage_writes {report : Report} {r : Register} :
    r ∈ report.usage.writes ↔ r ∈ report.effects.writes.items ∨
      ∃ op ∈ report.operands.toList, r ∈ op.writtenRegisters report.effects.writeback :=
  (report.mem_usage r).2

/-- The flags are updated just when a flag register is written, implicitly or as an
operand; the scan of the implicit registers misses none. -/
theorem updatesFlags_iff {e : Encoded} {report : Report} (hTable : e.opcode.HasRoom)
    (h : (fill e).result = .ok report) :
    (report.effects.updatesFlags = true ↔
      (∃ r ∈ flagRegisters, r ∈ report.effects.writes.items) ∨
        ∃ op ∈ report.operands.toList, op.NamesWrittenFlag) ∧
    writesAny report.effects.writes.items flagRegisters =
      report.effects.writes.items.any (· ∈ flagRegisters) := by
  have hScan : writesAny report.effects.writes.items flagRegisters =
      report.effects.writes.items.any (· ∈ flagRegisters) :=
    writesAny_eq_any (fill_sound hTable h).effects.writes.noTerminator
  refine ⟨?_, hScan⟩
  obtain ⟨effects, visited, _, _, hSettle, hOperands⟩ := fill_eq_ok h
  have hSettled := Effects.settle_settled hSettle
  have hWrites : report.effects.writes = visited.effects.writes := by rw [← hSettled.others]
  rw [hSettled.flags, ← hOperands, ← hWrites, hScan, Bool.or_eq_true, List.any_eq_true,
    List.any_eq_true, or_comm]
  simp only [Operand.writesFlags_iff, decide_eq_true_eq, and_comm]

end Report

/-- In the table only the status register itself is among the registers written, and
not where a site sets the flags. -/
theorem flags_of_mem_templates {t : Template} (ht : t ∈ templates) :
    (∀ r ∈ flagRegisters, r ∈ t.writes → r = .cpsr) ∧
      (.cpsr ∈ t.writes → ∀ site ∈ t.sites, site.settlesWrites = false) := by
  have hAll : ∀ t ∈ templates, (∀ r ∈ flagRegisters, r ∈ t.writes → r = .cpsr) ∧
      (.cpsr ∈ t.writes → ∀ site ∈ t.sites, site.settlesWrites = false) := by
    decide +kernel
  exact hAll t ht

/-- The instruction sets the flags: the field of its flag site names a register. -/
def SetsFlags (e : Encoded) : Prop :=
  ∃ i, .effect .flagSetter i ∈ e.opcode.sites ∧ e.registerId i ≠ 0

/-- A flag register is implicitly written just when the instruction sets the flags, or
the template says so. -/
theorem Effects.ImplicitOf.flagWritten_iff {e : Encoded} {fx : Effects}
    (hTable : e.opcode ∈ templates) (hImplicit : fx.ImplicitOf e)
    (hFields : ∀ i, .effect .flagSetter i ∈ e.opcode.sites → e.isImmediate i = false) :
    (∃ r ∈ flagRegisters, r ∈ fx.writes.items) ↔ SetsFlags e ∨ .cpsr ∈ e.opcode.writes := by
  obtain ⟨hOnly, hNoSite⟩ := flags_of_mem_templates hTable
  constructor
  · rintro ⟨r, hFlag, hWritten⟩
    by_cases hSite : ∃ i, .effect .flagSetter i ∈ e.opcode.sites
    · obtain ⟨i, hMem⟩ := hSite
      cases hVacant : (e.field i).isVacant with
      | true =>
          -- What is left of the template's registers is no flag register.
          rw [hImplicit.writesUnset i hMem hVacant, List.mem_filter, decide_eq_true_eq] at hWritten
          exact absurd (hOnly r hFlag hWritten.1) hWritten.2
      | false =>
          refine .inl ⟨i, hMem, ?_⟩
          intro hZero
          rw [(isVacant_iff (hFields i hMem)).mpr hZero] at hVacant
          contradiction
    · rw [hImplicit.writesPlain fun i hMem => hSite ⟨i, hMem⟩] at hWritten
      exact .inr (hOnly r hFlag hWritten ▸ hWritten)
  · intro hEither
    refine ⟨.cpsr, by decide, ?_⟩
    rcases hEither with ⟨i, hMem, hRegister⟩ | hListed
    · have hHeld : (e.field i).isVacant = false := by
        rw [Bool.eq_false_iff, Ne, isVacant_iff (hFields i hMem)]
        exact hRegister
      rw [hImplicit.writesSet i hMem hHeld]
      exact Footprint.mem_mention.mpr (.inr rfl)
    · have hNone : ∀ i, .effect .flagSetter i ∉ e.opcode.sites := by
        intro i hMem
        have hSettles := hNoSite hListed _ hMem
        contradiction
      rw [hImplicit.writesPlain hNone]
      exact hListed

/-- Apart from bases that are written back, the operands write a flag register just when
one of them names it. -/
theorem Operand.flagWritten_iff {op : Operand} (writeback : Bool)
    (hBase : ∀ m, op.value = .memory m → m.base ∉ flagRegisters) :
    (∃ r ∈ flagRegisters, r ∈ op.writtenRegisters writeback) ↔ op.NamesWrittenFlag := by
  unfold writtenRegisters NamesWrittenFlag
  cases hValue : op.value with
  | register r =>
      cases hWrite : op.access.write with
      | true => simp
      | false => simp
  | memory m =>
      have hNot := hBase m hValue
      simp only [reduceCtorEq, false_and, and_false, exists_false, iff_false]
      rintro ⟨r, hFlag, hWritten⟩
      split at hWritten
      · rw [List.mem_singleton.mp hWritten] at hFlag
        exact hNot hFlag
      · contradiction
  | _ => simp

/-- The flags of a filled instruction are updated just when a flag register is among the
registers implicitly written or is an operand that is written: that is, when its flag
field names a register, its template writes the status register, or there is such an
operand.  The summary of its registers agrees, unless a flag register is a base. -/
theorem take_fill_updatesFlags {e : Encoded} {insn filled : Instruction}
    (hTable : e.opcode ∈ templates) (hBuild : Instruction.build e true = .ok insn)
    (h : (insn.take .fill).result = .ok filled) :
    ∃ report : Report, filled = { e with report := some report } ∧
      (report.effects.updatesFlags = true ↔
        (∃ r ∈ flagRegisters, r ∈ report.effects.writes.items) ∨
          ∃ op ∈ report.operands.toList, op.NamesWrittenFlag) ∧
      (report.effects.updatesFlags = true ↔
        SetsFlags e ∨ .cpsr ∈ e.opcode.writes ∨
          ∃ op ∈ report.operands.toList, op.NamesWrittenFlag) ∧
      writesAny report.effects.writes.items flagRegisters =
        report.effects.writes.items.any (· ∈ flagRegisters) ∧
      ((∀ op ∈ report.operands.toList, ∀ m, op.value = .memory m → m.base ∉ flagRegisters) →
        (report.effects.updatesFlags = true ↔
          ∃ r ∈ flagRegisters, r ∈ report.usage.writes)) := by
  have hTidy := tidy_of_mem_templates hTable
  have hFields := flagFields_of_build hTable hBuild
  obtain ⟨_, rfl⟩ := takes_of_build hBuild
  obtain ⟨report, hFill, rfl⟩ := map_eq_ok_iff.mp h
  obtain ⟨hFlags, hScan⟩ := Report.updatesFlags_iff (hasRoom_of_mem_templates hTable) hFill
  refine ⟨report, rfl, hFlags, ?_, hScan, ?_⟩
  · rw [hFlags, (Report.fill_implicit hTidy hFields hFill).flagWritten_iff hTable hFields, or_assoc]
  · intro hBases
    rw [hFlags]
    simp only [Report.mem_usage_writes]
    constructor
    · rintro (⟨r, hFlag, hWritten⟩ | ⟨op, hOp, hNames⟩)
      · exact ⟨r, hFlag, .inl hWritten⟩
      · obtain ⟨r, hFlag, hWritten⟩ := (Operand.flagWritten_iff _ (hBases op hOp)).mpr hNames
        exact ⟨r, hFlag, .inr ⟨op, hOp, hWritten⟩⟩
    · rintro ⟨r, hFlag, hWritten | ⟨op, hOp, hWritten⟩⟩
      · exact .inl ⟨r, hFlag, hWritten⟩
      · exact .inr ⟨op, hOp, (Operand.flagWritten_iff _ (hBases op hOp)).mp ⟨r, hFlag, hWritten⟩⟩

/-- An addition that sets the flags updates them, and its summary says so: it names the
status register in its last field, and has no memory operand. -/
theorem take_fill_updatesFlags_addition :
    addAndSetFlags.opcode ∈ templates ∧
      Instruction.build addAndSetFlags true =
        .ok { addAndSetFlags with report := some (default : Report) } ∧
      ∃ report : Report,
        (Instruction.take { addAndSetFlags with report := some (default : Report) } .fill).result =
          .ok { addAndSetFlags with report := some report } ∧
        (∀ op ∈ report.operands.toList, op.isMemory = false) ∧
        report.effects.updatesFlags = true ∧ ∃ r ∈ flagRegisters, r ∈ report.usage.writes := by
  have hTable : addAndSetFlags.opcode ∈ templates := by
    dsimp only [addAndSetFlags]
    exact List.get_find?_mem _
  have hBuild : Instruction.build addAndSetFlags true =
      .ok { addAndSetFlags with report := some (default : Report) } := rfl
  obtain ⟨report, hReport, _, hFlags, _, hUsage⟩ := take_fill_updatesFlags hTable hBuild
    (show (Instruction.take { addAndSetFlags with report := some (default : Report) }
      .fill).result = .ok _ from rfl)
  have hUpdates : report.effects.updatesFlags = true :=
    hFlags.mpr (.inl ⟨5, by decide, by decide⟩)
  have hPlain : ∀ op ∈ report.operands.toList, op.isMemory = false := by
    cases hReport
    decide
  refine ⟨hTable, hBuild, report, congrArg Except.ok hReport, hPlain, hUpdates, ?_⟩
  refine (hUsage ?_).mp hUpdates
  intro op hOp m hValue
  have hNot := hPlain op hOp
  simp [Operand.isMemory, hValue] at hNot

end OperandReport.Arm
