import OperandReport.Proofs.Arm.Magnitude
import OperandReport.Proofs.Arm.Table

/-!
# Filling a report

Filling starts from the template, visits every site and settles the rest.  For an
accepted instruction only one thing can go wrong: a site that annotates stands
before any operand that it could annotate.  `LooksBackTooFar` says when that is,
in terms of the fields alone.

## Main results

* `fill_stage`: the operands of a filled report are those that the sites complete.
* `take_fill_of_build`: filling an accepted instruction gives a report, unless it
  looks back too far, and then it ends in that one fault.
-/

namespace OperandReport.Arm

/-- Some site annotates, and every site before it is a predicate or a vacant field on
its own. -/
def LooksBackTooFar (e : Encoded) : Prop :=
  ∃ before site after, e.opcode.sites = before ++ site :: after ∧ site.annotates e = true ∧
    ∀ earlier ∈ before, earlier.isSilent e = true

namespace Report

/-- A fresh report has no operands. -/
theorem initial_stage {e : Encoded} {report : Report} (h : initial e = .ok report) :
    Stage e [] report := by
  obtain ⟨effects, _, rfl⟩ := map_eq_ok_iff.mp h
  exact ⟨Cursor.atRest_empty, rfl⟩

/-- A fresh report comes about while the sets have room. -/
theorem initial_progress {e : Encoded} (hTable : e.opcode.HasRoom) :
    ∃ report, initial e = .ok report ∧ report.effects.Sound e.opcode := by
  obtain ⟨effects, hEffects, hSound⟩ := Effects.ofTemplate_sound hTable
  refine ⟨{ effects }, ?_, hSound⟩
  rw [initial, hEffects]
  rfl

/-- Settling leaves the operands alone, and nothing was open. -/
theorem finish_operands {e : Encoded} {report after : Report}
    (h : report.finish e = .ok after) :
    after.operands = report.operands ∧ report.operands.isOpen = false := by
  unfold finish at h
  split at h
  · contradiction
  · next hOpen =>
    obtain ⟨effects, _, rfl⟩ := map_eq_ok_iff.mp h
    exact ⟨rfl, by simpa using hOpen⟩

/-- Settling succeeds while nothing is open. -/
theorem finish_progress {e : Encoded} {report : Report} (hTable : e.opcode.HasRoom)
    (hSound : report.effects.Sound e.opcode) (hClosed : report.operands.isOpen = false) :
    ∃ after, report.finish e = .ok after ∧ after.effects.Sound e.opcode := by
  obtain ⟨effects, hSettle, hAfter⟩ :=
    Effects.settle_sound hTable hSound report.operands.toList
  refine ⟨{ report with effects }, ?_, hAfter⟩
  rw [finish, hClosed, hSettle]
  rfl

/-- The operands of a filled report are those that the sites complete. -/
theorem fill_stage {e : Encoded} {report : Report} (h : (fill e).result = .ok report) :
    Stage e e.opcode.sites report := by
  obtain ⟨fresh, hFresh, hRest⟩ := Outcome.result_bind_eq_ok_iff.mp h
  obtain ⟨visited, hVisited, hFinish⟩ := Outcome.result_bind_eq_ok_iff.mp hRest
  have hStage := visitAll_stage (initial_stage hFresh) hVisited
  have hSame := (finish_operands hFinish).1
  exact ⟨hSame ▸ hStage.atRest, hSame ▸ hStage.operands⟩

/-- All operands of a filled report have a property that the edits of every site maintain. -/
theorem fill_maintains {e : Encoded} {p : Operand → Prop} {report : Report}
    (hSites : ∀ form i, .operand form i ∈ e.opcode.sites →
      ∀ edit ∈ form.edits e i, edit.Maintains p)
    (h : (fill e).result = .ok report) : ∀ op ∈ report.operands.toList, p op := by
  obtain ⟨fresh, hFresh, hRest⟩ := Outcome.result_bind_eq_ok_iff.mp h
  obtain ⟨visited, hVisited, hFinish⟩ := Outcome.result_bind_eq_ok_iff.mp hRest
  have hNone : fresh.operands.toList = [] := by
    obtain ⟨effects, _, rfl⟩ := map_eq_ok_iff.mp hFresh
    rfl
  rw [(finish_operands hFinish).1]
  exact visitAll_maintains (initial_stage hFresh) (by simp [hNone]) hSites hVisited

/-- Filling is stranded and ends in the look-back fault, or it is not and gives a
report. -/
theorem fill_progress {e : Encoded} (hTable : e.opcode.WellPlaced)
    (hTakes : e.opcode.takes e.fields.length = true) :
    (Stranded e [] e.opcode.sites ∧ (fill e).result = .error nothingBefore) ∨
      (¬ Stranded e [] e.opcode.sites ∧
        ∃ report, (fill e).result = .ok report ∧ report.effects.Sound e.opcode) := by
  obtain ⟨fresh, hFresh, hSound⟩ := initial_progress hTable.sets
  have hFill : (fill e).result =
      ((fresh.visitAll e e.opcode.sites).bind fun report => .ofResult (report.finish e)).result :=
    Outcome.result_bind_ok (x := .ofResult (initial e)) hFresh
  have hStage := initial_stage hFresh
  have hRoom : (([] ++ e.opcode.sites).flatMap (Site.completed e)).length ≤ operandCapacity :=
    Nat.le_trans (length_completed_le hTakes hTable.lists) hTable.operands
  rcases visitAll_progress hTable.sets hStage hSound hTable.shifts hRoom with
    ⟨hStranded, hVisit⟩ | ⟨hNot, visited, hVisit, hVisitedSound⟩
  · exact .inl ⟨hStranded, hFill.trans (Outcome.result_bind_error hVisit)⟩
  · have hClosed := (visitAll_stage hStage hVisit).atRest.closed
    obtain ⟨report, hFinish, hReportSound⟩ :=
      finish_progress hTable.sets hVisitedSound hClosed
    refine .inr ⟨hNot, report, ?_, hReportSound⟩
    rw [hFill, Outcome.result_bind_ok hVisit]
    exact hFinish

end Report

/-- In the table, the sites before one that annotates complete nothing just when they
are silent. -/
private theorem completed_before_eq_nil_iff {e : Encoded} {before after : List Site} {site : Site}
    (hTable : e.opcode.WellPlaced) (hSites : e.opcode.sites = before ++ site :: after)
    (hAnnotates : site.annotates e = true) :
    before.flatMap (Site.completed e) = [] ↔
      ∀ earlier ∈ before, earlier.isSilent e = true := by
  have hLooksBack : site.looksBack = true := Site.looksBack_of_annotates hAnnotates
  have hGuards := hSites ▸ hTable.guards
  have hGuard : ∀ earlier ∈ before, earlier.isGuard = true := by
    intro earlier hEarlier
    exact (List.pairwise_append.mp hGuards).2.2 earlier hEarlier site (by simp) hLooksBack
  rw [List.flatMap_eq_nil_iff]
  constructor
  · intro hNone earlier hEarlier
    exact (completed_eq_nil_iff (hGuard earlier hEarlier)).mp (hNone earlier hEarlier)
  · intro hSilent earlier hEarlier
    exact (completed_eq_nil_iff (hGuard earlier hEarlier)).mpr (hSilent earlier hEarlier)

/-- In the table, a run is stranded just when the instruction looks back too far. -/
theorem stranded_iff_looksBackTooFar {e : Encoded} (hTable : e.opcode.WellPlaced) :
    Stranded e [] e.opcode.sites ↔ LooksBackTooFar e := by
  constructor
  · rintro ⟨before, site, after, hSites, hAnnotates, hNone⟩
    exact ⟨before, site, after, hSites, hAnnotates,
      (completed_before_eq_nil_iff hTable hSites hAnnotates).mp hNone⟩
  · rintro ⟨before, site, after, hSites, hAnnotates, hSilent⟩
    exact ⟨before, site, after, hSites, hAnnotates,
      (completed_before_eq_nil_iff hTable hSites hAnnotates).mpr hSilent⟩

/-- Filling an accepted instruction gives a report, unless it looks back too far, and
then it ends in that one fault.  No number that is computed on the way overflows. -/
theorem take_fill_of_build {e : Encoded} {insn : Instruction} (hTable : e.opcode ∈ templates)
    (hBuild : Instruction.build e true = .ok insn) :
    (¬ LooksBackTooFar e →
      ∃ report, (insn.take .fill).result = .ok { insn with report := some report }) ∧
    (LooksBackTooFar e → (insn.take .fill).result = .error nothingBefore) ∧
    nothingBefore.message =
      "[decoder::operands] operand offset -1 out of bounds (len 0, open false)" ∧
    ∀ site ∈ e.opcode.sites, ∀ q ∈ site.quantities e, q.value < q.limit := by
  have hPlaced := wellPlaced_of_mem_templates hTable
  obtain ⟨hTakes, rfl⟩ := takes_of_build hBuild
  have hTake : (Instruction.take (.ofEncoded e true) .fill).result =
      (Report.fill e).result.map fun report =>
        { (.ofEncoded e true : Instruction) with report := some report } := rfl
  rw [hTake, ← stranded_iff_looksBackTooFar hPlaced]
  refine ⟨?_, ?_, rfl, quantities_lt_limit hTable⟩
  · intro hNot
    rcases Report.fill_progress hPlaced hTakes with ⟨hStranded, _⟩ | ⟨_, report, hFill, _⟩
    · exact absurd hStranded hNot
    · exact ⟨report, by rw [hFill]; rfl⟩
  · intro hStranded
    rcases Report.fill_progress hPlaced hTakes with ⟨_, hFill⟩ | ⟨hNot, _⟩
    · rw [hFill]
      rfl
    · exact absurd hStranded hNot

/-- A halfword packing with a shift, and no operand that it could shift. -/
def packOfNothing : Encoded where
  opcode := (templates.find? (·.name == "PKHBT")).get (by decide +kernel)
  fields := [.vacant, .vacant, .vacant, .immediate 1, .vacant, .vacant]

/-- A packing of nothing is accepted, looks back too far, and ends in the fault. -/
theorem take_fill_packOfNothing :
    packOfNothing.opcode ∈ templates ∧
      Instruction.build packOfNothing true =
        .ok { packOfNothing with report := some (default : Report) } ∧
      LooksBackTooFar packOfNothing ∧
      (Instruction.take { packOfNothing with report := some (default : Report) } .fill).result =
        .error nothingBefore := by
  have hTable : packOfNothing.opcode ∈ templates := by
    dsimp only [packOfNothing]
    exact List.get_find?_mem _
  have hBuild : Instruction.build packOfNothing true =
      .ok { packOfNothing with report := some (default : Report) } := rfl
  have hTooFar : LooksBackTooFar packOfNothing :=
    ⟨[.effect .predicate 4, .operand .plain 0, .operand .plain 1, .operand .plain 2],
      .operand .packLeft 3, [], rfl, by decide, by decide⟩
  exact ⟨hTable, hBuild, hTooFar, (take_fill_of_build hTable hBuild).2.1 hTooFar⟩

end OperandReport.Arm
