import OperandReport.Proofs.Arm.Ordinary
import OperandReport.Proofs.Arm.Steps
import OperandReport.Proofs.Power.Accounting
import OperandReport.Proofs.Screening

/-!
# The absence of a register in a summary

Register zero stands for the absence of a register.  A field may hold it wherever a
register is expected, and so may a field that was left out.  Most of what is made of fields
leaves it out again: a field on its own, the members of a register list, an offset, and the
registers of memory operands and of shifts.

Some forms show the register at their first field all the same, and the register summary
lists what operands show.  So the absence of a register gets into the summary, on the side
of the access of such a field, just if the field gives none.

## Main results

* `Arm.exists_absent_iff`, `Power.exists_absent_iff`: the operands that show no register.
* `none_mem_usage_iff`: when the summary of a decoded instruction lists the absence of a
  register.
-/

namespace OperandReport

namespace Arm

/-! ## ARM -/

theorem Register.not_isSome_none {r : Register} : ¬ (r.isSome = true ∧ .none = r) := by
  rintro ⟨hSome, rfl⟩
  contradiction

namespace Operand

/-- Of what an operand reads only its own register can be the absence of one. -/
theorem none_mem_readRegisters_iff (op : Operand) :
    .none ∈ op.readRegisters ↔ op.value = .register .none ∧ op.access.read = true := by
  have hShift : .none ∉ op.shift.distanceRegisters := by
    unfold Shift.distanceRegisters
    dsimp only
    split
    · next hDistance =>
      intro hMem
      exact hDistance.2.1 (congrArg Register.id (List.mem_singleton.mp hMem)).symm
    · exact List.not_mem_nil
  rw [readRegisters, List.mem_append, or_iff_left hShift]
  cases op.value with
  | register r =>
      simp only [List.mem_ite_nil_right, List.mem_singleton, Value.register.injEq]
      exact ⟨fun h => ⟨h.2.symm, h.1⟩, fun h => ⟨h.2, h.1.symm⟩⟩
  | memory m =>
      simp only [List.mem_append, List.mem_ite_nil_right, List.mem_singleton,
        Register.not_isSome_none, or_self, reduceCtorEq, false_and]
  | _ => simp

/-- Of what an operand writes only its own register can be the absence of one. -/
theorem none_mem_writtenRegisters_iff (writeback : Bool) (op : Operand) :
    .none ∈ op.writtenRegisters writeback ↔
      op.value = .register .none ∧ op.access.write = true := by
  unfold writtenRegisters
  cases op.value with
  | register r =>
      simp only [List.mem_ite_nil_right, List.mem_singleton, Value.register.injEq]
      exact ⟨fun h => ⟨h.2.symm, h.1⟩, fun h => ⟨h.2, h.1.symm⟩⟩
  | memory m =>
      simp only [List.mem_ite_nil_right, List.mem_singleton, Bool.and_eq_true, reduceCtorEq,
        false_and, iff_false]
      exact fun h => Register.not_isSome_none ⟨h.1.1, h.2⟩
  | _ => simp

end Operand

/-- The site shows the absence of a register, at a field whose access has a side. -/
def Site.showsAbsence (e : Encoded) (side : Access → Bool) : Site → Bool
  | effect .. => false
  | operand form i => form.showsAbsent && e.registerId i == 0 && side (accessAt e i)

/-- Some site shows the absence of a register. -/
def ShowsAbsence (e : Encoded) (side : Access → Bool) : Prop :=
  ∃ site ∈ e.opcode.sites, site.showsAbsence e side = true

instance (e : Encoded) (side : Access → Bool) : Decidable (ShowsAbsence e side) :=
  inferInstanceAs (Decidable (∃ site ∈ e.opcode.sites, site.showsAbsence e side = true))

section

variable {e : Encoded} {side : Access → Bool}

/-- One site completes the absence of a register just if its form may show it and the first
field gives none. -/
theorem exists_absent_completed_iff (hKnown : AllKnown e) (site : Site) :
    (∃ op ∈ site.completed e, op.value = .register .none ∧ side op.access = true) ↔
      site.showsAbsence e side = true := by
  cases site with
  | effect form i => simp [Site.completed, Site.showsAbsence]
  | operand form i =>
      show (∃ op ∈ Edit.completedBy (form.edits e i), _) ↔ _
      simp only [Site.showsAbsence, Bool.and_eq_true, beq_iff_eq]
      cases hForm : form.showsAbsent with
      | false =>
          refine iff_of_false ?_ fun h => Bool.false_ne_true h.1.1
          rintro ⟨op, hOp, hNone, _⟩
          exact form.complete_named_of_not_showsAbsent hKnown hForm op hOp hNone
      | true =>
          by_cases hAbsent : registerAt e i = .none
          · obtain ⟨shown, hShown, hNone, hAccess⟩ := form.completedBy_absent hForm hAbsent
            simp [hShown, hNone, hAccess, hKnown.registerAt_eq_none_iff.mp hAbsent]
          · refine iff_of_false ?_ fun h => hAbsent (hKnown.registerAt_eq_none_iff.mpr h.1.2)
            rintro ⟨op, hOp, hNone, _⟩
            exact form.complete_named hForm hAbsent op hOp hNone

/-- The operands of a filled report that show no register. -/
theorem exists_absent_iff (hKnown : AllKnown e) {report : Report}
    (h : (Report.fill e).result = .ok report) :
    (∃ op ∈ report.operands.toList, op.value = .register .none ∧ side op.access = true) ↔
      ShowsAbsence e side := by
  -- Annotations change neither the value nor the access of an operand.
  have hBare : ∀ ops : List Operand,
      (∃ op ∈ ops, op.value = .register .none ∧ side op.access = true) ↔
        ∃ op ∈ ops.map Operand.bare, op.value = .register .none ∧ side op.access = true :=
    fun ops => by
      constructor
      · rintro ⟨op, hOp, hShows⟩
        exact ⟨op.bare, List.mem_map_of_mem hOp, hShows⟩
      · rintro ⟨_, hOp, hShows⟩
        obtain ⟨op, hMem, rfl⟩ := List.mem_map.mp hOp
        exact ⟨op, hMem, hShows⟩
  rw [hBare, (Report.fill_stage h).operands, ← hBare]
  constructor
  · rintro ⟨op, hOp, hShows⟩
    obtain ⟨site, hSite, hCompleted⟩ := List.mem_flatMap.mp hOp
    exact ⟨site, hSite, (exists_absent_completed_iff hKnown site).mp ⟨op, hCompleted, hShows⟩⟩
  · rintro ⟨site, hSite, hShows⟩
    obtain ⟨op, hCompleted, hOp⟩ := (exists_absent_completed_iff hKnown site).mpr hShows
    exact ⟨op, List.mem_flatMap.mpr ⟨site, hSite, hCompleted⟩, hOp⟩

end

/-- The summary of a filled report lists the absence of a register just where some site shows
it: no implicit set holds one. -/
theorem Report.none_mem_usage {e : Encoded} {report : Report} (hTable : e.opcode ∈ templates)
    (hKnown : AllKnown e) (h : (fill e).result = .ok report) :
    (.none ∈ report.usage.reads ↔ ShowsAbsence e Access.read) ∧
      (.none ∈ report.usage.writes ↔ ShowsAbsence e Access.write) := by
  have hSound := (fill_sound (hasRoom_of_mem_templates hTable) h).effects
  have hReads : .none ∉ report.effects.reads.items := hSound.reads.noTerminator
  have hWrites : .none ∉ report.effects.writes.items := hSound.writes.noTerminator
  obtain ⟨hReadSide, hWriteSide⟩ := report.mem_usage .none
  simp only [Operand.none_mem_readRegisters_iff, Operand.none_mem_writtenRegisters_iff]
    at hReadSide hWriteSide
  rw [hReadSide, hWriteSide, or_iff_right hReads, or_iff_right hWrites,
    exists_absent_iff hKnown h, exists_absent_iff hKnown h]
  exact ⟨Iff.rfl, Iff.rfl⟩

end Arm

namespace Power

/-! ## PowerPC -/

/-- Every register number of the instruction is known. -/
def AllKnown (e : Encoded) : Prop := ∀ i, Register.ofId? (e.registerId i) = some (registerAt e i)

theorem AllKnown.registerAt_eq_none_iff {e : Encoded} (hKnown : AllKnown e) {i : Nat} :
    registerAt e i = .none ↔ e.registerId i = 0 := by
  have hAt := hKnown i
  unfold Register.ofId? at hAt
  split at hAt
  · rw [← Option.some.inj hAt]
    exact ⟨fun h => congrArg Register.id h, fun h => congrArg Register.mk h⟩
  · contradiction

theorem Register.not_isSome_none {r : Register} : ¬ (r.isSome = true ∧ .none = r) := by
  rintro ⟨hSome, rfl⟩
  contradiction

/-- A register that has parts is a register. -/
theorem Register.ne_none_of_whole? {r s : Register} (h : r.whole? = some s) : s ≠ .none := by
  obtain ⟨family, _, h⟩ := Option.bind_eq_some_iff.mp h
  obtain ⟨n, _, h⟩ := Option.bind_eq_some_iff.mp h
  cases family with
  | conditionBit | floating | vector =>
      cases h
      simp [conditionField, none, Family.first]
  | _ => contradiction

/-- The vector-scalar register over a register is none just if there is no register. -/
theorem Register.vectorScalar_eq_none_iff {r : Register} :
    r.vectorScalar = .none ↔ r = .none := by
  have hWhole : ∀ {family}, r.family? = some family → (r.whole?.getD r = .none ↔ r = .none) := by
    intro family hFamily
    have hSome : r ≠ .none := by
      rintro rfl
      contradiction
    cases hWhole : r.whole? with
    | none => exact Iff.rfl
    | some s => exact iff_of_false (ne_none_of_whole? hWhole) hSome
  unfold vectorScalar
  split
  · next hFamily => exact hWhole hFamily
  · next hFamily => exact hWhole hFamily
  · exact Iff.rfl

theorem reportedRegister_eq_none_iff {e : Encoded} {i : Nat} :
    reportedRegister e i = .none ↔ registerAt e i = .none := by
  unfold reportedRegister
  split
  · exact Register.vectorScalar_eq_none_iff
  · exact Iff.rfl

/-- The operand is not the absence of a register. -/
abbrev Named (op : Operand) : Prop := op.value ≠ .register .none

theorem Named.immediate {op : Operand} {v : Imm} (h : op.value = .immediate v) : Named op := by
  simp [h]

theorem Named.memory {op : Operand} {m : Memory} (h : op.value = .memory m) : Named op := by
  simp [h]

section Pieces

open Edit (Complete)

variable {e : Encoded} {i : Nat}

theorem complete_registerEdits (h : registerAt e i ≠ .none) :
    Complete Named (registerEdits e i) := by
  intro op hOp
  rw [completedBy_registerEdits] at hOp
  rw [List.mem_singleton.mp hOp]
  exact fun hEq => h (reportedRegister_eq_none_iff.mp (Value.register.inj hEq))

theorem complete_plainEdits (hKnown : AllKnown e) : Complete Named (plainEdits e i) := by
  unfold plainEdits
  split
  · exact .nil
  · next id hField =>
    split
    · exact .nil
    · next hSome =>
      have hId : e.registerId i = id := by simp [Encoded.registerId, hField]
      refine complete_registerEdits fun h => ?_
      exact hSome (hId.symm.trans (hKnown.registerAt_eq_none_iff.mp h))
  · exact .report (Named.immediate rfl)

theorem complete_branchEdits (hKnown : AllKnown e) : Complete Named (branchEdits e i) := by
  unfold branchEdits
  dsimp only
  split
  · split
    · exact .report (Named.immediate rfl)
    · exact .report (Named.immediate rfl)
  · exact complete_plainEdits hKnown

theorem complete_displacedEdits {displacement : Imm} :
    Complete Named (displacedEdits e i displacement) := by
  unfold displacedEdits
  split
  · exact .bracket (Named.memory rfl)
  · exact .cons (.note _) (.report (Named.immediate rfl))

/-- Only a condition field that stands on its own may show the absence of a register. -/
theorem OperandForm.complete_named (hKnown : AllKnown e) {form : OperandForm}
    (hForm : form ≠ .conditionField) : Complete Named (form.edits e i) := by
  cases form with
  | plain => exact complete_plainEdits hKnown
  | branch | annotatedCall => exact complete_branchEdits hKnown
  | displaced | displacedExactly | displacedFar => exact complete_displacedEdits
  | displacedFromPc => exact .bracket (Named.memory rfl)
  | unsigned | signed | absoluteBranch => exact .report (Named.immediate rfl)
  | conditionField => contradiction
  | predicateRegister =>
      show Complete Named (if e.registerId (i + 1) = 0 then [] else registerEdits e (i + 1))
      split
      · exact .nil
      · next hSome =>
        exact complete_registerEdits fun h => hSome (hKnown.registerAt_eq_none_iff.mp h)
  | zero =>
      simp only [edits]
      split
      · exact .report (Named.immediate rfl)
      · exact .cons (.note _) (.report (Named.immediate rfl))
  | indexed =>
      simp only [edits]
      split
      · exact .bracket (Named.memory rfl)
      · exact .cons (.note _) ((complete_plainEdits hKnown).append (complete_plainEdits hKnown))

end Pieces

/-- The site shows a condition field that is not there, at a field whose access has a side. -/
def Site.showsAbsence (e : Encoded) (side : Access → Bool) : Site → Bool
  | operand .conditionField i => e.registerId i == 0 && side (accessAt e i)
  | _ => false

/-- Some site shows a condition field that is not there. -/
def ShowsAbsence (e : Encoded) (side : Access → Bool) : Prop :=
  ∃ site ∈ e.opcode.sites, site.showsAbsence e side = true

instance (e : Encoded) (side : Access → Bool) : Decidable (ShowsAbsence e side) :=
  inferInstanceAs (Decidable (∃ site ∈ e.opcode.sites, site.showsAbsence e side = true))

section

variable {e : Encoded} {side : Access → Bool}

/-- One site completes the absence of a register just if it is a condition field on its own
that is not there. -/
theorem exists_absent_completed_iff (hKnown : AllKnown e) (site : Site) :
    (∃ op ∈ site.completed e, op.value = .register .none ∧ side op.access = true) ↔
      site.showsAbsence e side = true := by
  cases site with
  | condition form i => simp [Site.completed, Site.showsAbsence]
  | operand form i =>
      by_cases hForm : form = .conditionField
      · subst hForm
        have hShown : (Site.operand .conditionField i).completed e =
            [⟨.register (reportedRegister e i), accessAt e i⟩] :=
          completedBy_registerEdits e i
        simp [hShown, Site.showsAbsence, reportedRegister_eq_none_iff,
          hKnown.registerAt_eq_none_iff]
      · have hNot : (Site.operand form i).showsAbsence e side = false := by
          cases form <;> first | rfl | contradiction
        rw [hNot]
        refine iff_of_false ?_ Bool.false_ne_true
        rintro ⟨op, hOp, hNone, _⟩
        exact form.complete_named hKnown hForm op hOp hNone

/-- The operands that sites complete and that show no register. -/
theorem exists_absent_iff (hKnown : AllKnown e) :
    (∃ op ∈ e.opcode.sites.flatMap (Site.completed e),
      op.value = .register .none ∧ side op.access = true) ↔ ShowsAbsence e side := by
  constructor
  · rintro ⟨op, hOp, hShows⟩
    obtain ⟨site, hSite, hCompleted⟩ := List.mem_flatMap.mp hOp
    exact ⟨site, hSite, (exists_absent_completed_iff hKnown site).mp ⟨op, hCompleted, hShows⟩⟩
  · rintro ⟨site, hSite, hShows⟩
    obtain ⟨op, hCompleted, hOp⟩ := (exists_absent_completed_iff hKnown site).mpr hShows
    exact ⟨op, List.mem_flatMap.mpr ⟨site, hSite, hCompleted⟩, hOp⟩

/-- Of the registers of an operand only the one that it shows can be the absence of one. -/
theorem Operand.none_mem_accesses_iff {writeback : Bool} {op : Operand} {a : Access} :
    (.none, a) ∈ op.accesses writeback ↔ op.value = .register .none ∧ a = op.access := by
  unfold accesses
  cases op.value with
  | register r =>
      simp only [List.mem_singleton, Prod.mk.injEq, Value.register.injEq]
      exact and_congr_left fun _ => eq_comm
  | memory m =>
      simp only [List.mem_append, List.mem_ite_nil_right, List.mem_singleton, Prod.mk.injEq,
        reduceCtorEq, false_and, iff_false]
      rintro (⟨hSome, hNone, _⟩ | ⟨hSome, hNone, _⟩)
      · exact Register.not_isSome_none ⟨hSome, hNone⟩
      · exact Register.not_isSome_none ⟨hSome, hNone⟩
  | _ => simp

/-- A side of the operands lists the absence of a register just if one of them shows it with
an access of that side. -/
theorem exists_none_mem_accesses_iff {writeback : Bool} {ops : List Operand} :
    (∃ a, (.none, a) ∈ ops.flatMap (Operand.accesses writeback) ∧ side a = true) ↔
      ∃ op ∈ ops, op.value = .register .none ∧ side op.access = true := by
  simp only [List.mem_flatMap, Operand.none_mem_accesses_iff]
  constructor
  · rintro ⟨_, ⟨op, hOp, hNone, rfl⟩, hSide⟩
    exact ⟨op, hOp, hNone, hSide⟩
  · rintro ⟨op, hOp, hNone, hSide⟩
    exact ⟨_, ⟨op, hOp, hNone, rfl⟩, hSide⟩

end

/-- The summary of a filled report lists the absence of a register just where some site shows
it: no implicit set holds one. -/
theorem Report.none_mem_usage {e : Encoded} {report : Report} (hTable : e.opcode ∈ templates)
    (hKnown : AllKnown e) (h : (fill e).result = .ok report) :
    (.none ∈ report.usage.reads ↔ ShowsAbsence e Access.read) ∧
      (.none ∈ report.usage.writes ↔ ShowsAbsence e Access.write) := by
  obtain ⟨_, hFill, hOperands, _, hSound, _⟩ := fill_progress (wellFormed_of_mem_templates hTable)
  cases hFill.symm.trans h
  have hList : report.operands.toList = e.opcode.sites.flatMap (Site.completed e) := by
    rw [hOperands, Cursor.toList_extend]
    rfl
  have hReads : .none ∉ report.effects.reads.items := hSound.reads.noTerminator
  have hWrites : .none ∉ report.effects.writes.items := hSound.writes.noTerminator
  obtain ⟨hReadSide, hWriteSide⟩ := report.mem_usage .none
  simp only [exists_none_mem_accesses_iff] at hReadSide hWriteSide
  rw [hReadSide, hWriteSide, or_iff_right hReads, or_iff_right hWrites, hList,
    exists_absent_iff hKnown, exists_absent_iff hKnown]
  exact ⟨Iff.rfl, Iff.rfl⟩

end Power

/-! ## Both architectures -/

/-- The register is the absence of one. -/
def AnyRegister.IsNone : AnyRegister → Prop
  | arm r => r = .none
  | power r => r = .none

/-- Some site of the instruction shows the absence of a register, at a field whose access has
a side.  On ARM these sites are those of registers with a shift or a direction of their own,
of pairs of core registers and of lists of vector registers; on PowerPC they are those of
condition fields. -/
def Decoded.ShowsAbsence (side : Access → Bool) : Decoded → Prop
  | arm insn => Arm.ShowsAbsence insn.toEncoded side
  | power insn => Power.ShowsAbsence insn.toEncoded side

instance (side : Access → Bool) : ∀ insn : Decoded, Decidable (insn.ShowsAbsence side)
  | .arm insn => inferInstanceAs (Decidable (Arm.ShowsAbsence insn.toEncoded side))
  | .power insn => inferInstanceAs (Decidable (Power.ShowsAbsence insn.toEncoded side))

/-- What a session decodes has passed its screen and was filled, if it was to be. -/
theorem decode_eq_ok {s : Session} {number : Nat} {fields : List Field} {address : BitVec 64}
    {insn : Decoded} (h : (s.decode number fields address).result = .ok (.ok insn)) :
    (∃ t ∈ Arm.templates, ∃ screened filled,
      Arm.Instruction.build ⟨t, fields, address, s.mode⟩ s.detail = .ok screened ∧
        (screened.take .fill).result = .ok filled ∧ insn = .arm filled) ∨
    ∃ t ∈ Power.templates, ∃ screened filled,
      Power.Instruction.build ⟨t, fields, address, s.mode⟩ s.detail = .ok screened ∧
        (screened.take .fill).result = .ok filled ∧ insn = .power filled := by
  unfold Session.decode at h
  cases hArchitecture : s.architecture with
  | arm =>
      simp only [hArchitecture] at h
      split at h
      · next t ht =>
        rw [Session.decodeArm, if_pos hArchitecture] at h
        split at h
        · cases h
        · next screened hBuild =>
          obtain ⟨filled, hTake, hInsn⟩ := map_eq_ok_iff.mp h
          cases hInsn
          exact .inl ⟨t, List.mem_of_getElem? ht, screened, filled, hBuild, hTake, rfl⟩
      · cases h
  | power =>
      simp only [hArchitecture] at h
      split at h
      · next t ht =>
        rw [Session.decodePower, if_pos hArchitecture] at h
        split at h
        · cases h
        · next screened hBuild =>
          obtain ⟨filled, hTake, hInsn⟩ := map_eq_ok_iff.mp h
          cases hInsn
          exact .inr ⟨t, List.mem_of_getElem? ht, screened, filled, hBuild, hTake, rfl⟩
      · cases h

/-- The summary of a filled instruction that was screened, where it has a report. -/
theorem Arm.none_mem_usage_of_take {e : Arm.Encoded} {detail : Bool}
    {screened filled : Arm.Instruction} {report : Arm.Report} (hTable : e.opcode ∈ Arm.templates)
    (hBuild : Arm.Instruction.build e detail = .ok screened)
    (hTake : (screened.take .fill).result = .ok filled) (hReport : filled.report = some report) :
    (.none ∈ report.usage.reads ↔ Arm.ShowsAbsence filled.toEncoded Access.read) ∧
      (.none ∈ report.usage.writes ↔ Arm.ShowsAbsence filled.toEncoded Access.write) := by
  obtain ⟨_, rfl⟩ := Arm.takes_of_build hBuild
  cases detail with
  | false =>
      cases hTake
      contradiction
  | true =>
      obtain ⟨report, hFill, rfl⟩ := map_eq_ok_iff.mp hTake
      cases hReport
      exact Arm.Report.none_mem_usage hTable (Arm.ofId?_of_build hBuild) hFill

theorem Power.none_mem_usage_of_take {e : Power.Encoded} {detail : Bool}
    {screened filled : Power.Instruction} {report : Power.Report}
    (hTable : e.opcode ∈ Power.templates)
    (hBuild : Power.Instruction.build e detail = .ok screened)
    (hTake : (screened.take .fill).result = .ok filled) (hReport : filled.report = some report) :
    (.none ∈ report.usage.reads ↔ Power.ShowsAbsence filled.toEncoded Access.read) ∧
      (.none ∈ report.usage.writes ↔ Power.ShowsAbsence filled.toEncoded Access.write) := by
  cases Power.eq_ofEncoded_of_build hBuild
  cases detail with
  | false =>
      cases hTake
      contradiction
  | true =>
      obtain ⟨report, hFill, rfl⟩ := map_eq_ok_iff.mp hTake
      cases hReport
      exact Power.Report.none_mem_usage hTable (Power.ofId?_of_build hBuild) hFill

theorem exists_isNone_arm_iff {registers : List Arm.Register} :
    (∃ r ∈ registers.map AnyRegister.arm, r.IsNone) ↔ .none ∈ registers := by
  constructor
  · rintro ⟨_, hMem, hNone⟩
    obtain ⟨r, hRegister, rfl⟩ := List.mem_map.mp hMem
    exact (show r = .none from hNone) ▸ hRegister
  · intro hMem
    exact ⟨.arm .none, List.mem_map_of_mem hMem, rfl⟩

theorem exists_isNone_power_iff {registers : List Power.Register} :
    (∃ r ∈ registers.map AnyRegister.power, r.IsNone) ↔ .none ∈ registers := by
  constructor
  · rintro ⟨_, hMem, hNone⟩
    obtain ⟨r, hRegister, rfl⟩ := List.mem_map.mp hMem
    exact (show r = .none from hNone) ▸ hRegister
  · intro hMem
    exact ⟨.power .none, List.mem_map_of_mem hMem, rfl⟩

/-- The summary of a decoded instruction lists the absence of a register as read just if some
site shows it at a field that is read, and as written just if some site shows it at one that
is written.  Nothing else gets it there: neither the implicit registers, nor memory operands
and shifts, nor any other form. -/
theorem none_mem_usage_iff {s : Session} {number : Nat} {fields : List Field}
    {address : BitVec 64} {insn : Decoded} {usage : Footprint AnyRegister}
    (hDecode : (s.decode number fields address).result = .ok (.ok insn))
    (hUsage : insn.usage = .ok usage) :
    ((∃ r ∈ usage.reads, r.IsNone) ↔ insn.ShowsAbsence Access.read) ∧
      ((∃ r ∈ usage.writes, r.IsNone) ↔ insn.ShowsAbsence Access.write) := by
  obtain ⟨report, hReport, rfl⟩ := map_eq_ok_iff.mp hUsage
  rcases decode_eq_ok hDecode with
    ⟨t, hTable, screened, filled, hBuild, hTake, rfl⟩ |
    ⟨t, hTable, screened, filled, hBuild, hTake, rfl⟩
  · cases hOwn : filled.report with
    | none => simp [Decoded.report, hOwn] at hReport
    | some own =>
        obtain rfl : .arm own = report := by simpa [Decoded.report, hOwn] using hReport
        show ((∃ r ∈ own.usage.reads.map AnyRegister.arm, r.IsNone) ↔ _) ∧
          ((∃ r ∈ own.usage.writes.map AnyRegister.arm, r.IsNone) ↔ _)
        rw [exists_isNone_arm_iff, exists_isNone_arm_iff]
        exact Arm.none_mem_usage_of_take hTable hBuild hTake hOwn
  · cases hOwn : filled.report with
    | none => simp [Decoded.report, hOwn] at hReport
    | some own =>
        obtain rfl : .power own = report := by simpa [Decoded.report, hOwn] using hReport
        show ((∃ r ∈ own.usage.reads.map AnyRegister.power, r.IsNone) ↔ _) ∧
          ((∃ r ∈ own.usage.writes.map AnyRegister.power, r.IsNone) ↔ _)
        rw [exists_isNone_power_iff, exists_isNone_power_iff]
        exact Power.none_mem_usage_of_take hTable hBuild hTake hOwn

/-- An addition of a register that is not there, shifted by a constant. -/
def Arm.addNothing : List Field :=
  [.register 32, .register 33, .register 0, .immediate 0, .immediate 14, .register 0, .register 0]

/-- The summary of such an addition lists the absence of a register as read, next to the one
register that is there. -/
theorem none_mem_usage_addNothing :
    ∃ number insn, (Arm.Template.ofNumber? number).map Arm.Template.name = some "ADDrsi" ∧
      (({} : Session).decode number Arm.addNothing 0).result = .ok (.ok insn) ∧
      insn.usage = .ok ⟨[.arm (.core 1), .arm .none], [.arm (.core 0)]⟩ :=
  ⟨Arm.templates.findIdx (·.name == "ADDrsi"), _, rfl, rfl, rfl⟩

/-- An addition with a shift by a register that is not there. -/
def Arm.shiftByNothing : List Field :=
  [.register 32, .register 33, .register 34, .register 0, .immediate 2, .immediate 14,
    .register 0, .register 0]

/-- A move to a condition field that is not there. -/
def Power.moveToNothing : List Field := [.register 0, .register 12]

/-- The absence of a shift register is left out, but that of a condition field is listed. -/
theorem none_mem_usage_moveToNothing :
    (∃ number insn usage, (Arm.Template.ofNumber? number).map Arm.Template.name = some "ADDrsr" ∧
      (({} : Session).decode number Arm.shiftByNothing 0).result = .ok (.ok insn) ∧
      insn.usage = .ok usage ∧ (¬ ∃ r ∈ usage.reads, r.IsNone) ∧ ¬ ∃ r ∈ usage.writes, r.IsNone) ∧
    ∃ number insn usage,
      (Power.Template.ofNumber? number).map Power.Template.name = some "MTOCRF" ∧
      (({ architecture := .power } : Session).decode number Power.moveToNothing 0).result =
        .ok (.ok insn) ∧
      insn.usage = .ok usage ∧ (¬ ∃ r ∈ usage.reads, r.IsNone) ∧ ∃ r ∈ usage.writes, r.IsNone := by
  obtain ⟨hReads, hWrites⟩ := none_mem_usage_iff
    (show (({} : Session).decode (Arm.templates.findIdx (·.name == "ADDrsr"))
      Arm.shiftByNothing 0).result = .ok (.ok _) from rfl) rfl
  obtain ⟨hMovedReads, hMovedWrites⟩ := none_mem_usage_iff
    (show (({ architecture := .power } : Session).decode
      (Power.templates.findIdx (·.name == "MTOCRF")) Power.moveToNothing 0).result =
        .ok (.ok _) from rfl) rfl
  refine ⟨⟨Arm.templates.findIdx (·.name == "ADDrsr"), _, _, rfl, rfl, rfl, ?_, ?_⟩,
    Power.templates.findIdx (·.name == "MTOCRF"), _, _, rfl, rfl, rfl, ?_, ?_⟩
  · rw [hReads]
    decide +kernel
  · rw [hWrites]
    decide +kernel
  · rw [hMovedReads]
    decide +kernel
  · rw [hMovedWrites]
    decide +kernel

end OperandReport
