import OperandReport.Proofs.Arm.Fill
import OperandReport.Proofs.Runs

/-!
# Runs of single steps

The steps of the assembly may be taken one by one, in any order, with any form at any
field.  Such a run may well end in a fault, but it never leaves the invariant
`Report.Sound`: the operands fit together with the open one, the open one is a memory
operand, and the sets of the effects stay within what the template allows.

Each step has a lemma that carries the invariant over it and another one for the
faults in which it can end; the run lemmas follow by induction.  Under the invariant
a set is never found full, and the open operand is never of a wrong kind.

## Main results

* `Report.take_sound`, `Report.take_fault`: one step.
* `takeAll_of_build`: every run on an accepted instruction.
-/

namespace OperandReport.Arm

/-- The step is one that opens and closes nothing. -/
def Step.leavesOpenness : Step → Bool
  | visit _ | finish => true
  | _ => false

namespace Report

/-- The operands fit, the open one is a memory operand, and the effects are sound. -/
structure Sound (t : Template) (report : Report) : Prop where
  operands : report.operands.Fits (·.isMemory = true)
  effects : report.effects.Sound t

theorem sound_default (t : Template) : (default : Report).Sound t where
  operands := Cursor.fits_empty _
  effects := Effects.sound_default t

variable {e : Encoded} {report after : Report}

theorem initial_sound (hTable : e.opcode.HasRoom) (h : initial e = .ok after) :
    after.Sound e.opcode := by
  obtain ⟨fresh, hFresh, hSound⟩ := initial_progress hTable
  rw [hFresh] at h
  cases h
  have hRest := (initial_stage hFresh).atRest
  refine ⟨⟨?_, ?_⟩, hSound⟩
  · rw [hRest.closed]
    exact hRest.bound
  · intro op hOp
    have hClosed := hRest.closed
    simp [Cursor.isOpen, hOp] at hClosed

theorem visit_sound {site : Site} (hTable : e.opcode.HasRoom) (hSound : report.Sound e.opcode)
    (h : (report.visit e site).result = .ok after) :
    after.Sound e.opcode ∧ after.operands.isOpen = report.operands.isOpen := by
  cases site with
  | effect form i =>
      obtain ⟨effects, hApply, hEffects⟩ := Effects.apply_sound hTable hSound.effects i form
      obtain ⟨fx, hFx, rfl⟩ := map_eq_ok_iff.mp h
      rw [hApply] at hFx
      cases hFx
      exact ⟨⟨hSound.operands, hEffects⟩, rfl⟩
  | operand form i =>
      obtain ⟨operands, hApply, rfl⟩ := map_eq_ok_iff.mp h
      obtain ⟨hFits, hOpen⟩ :=
        Cursor.applyAll_fits hSound.operands (form.edits_keeps e i) hApply
      exact ⟨⟨hFits, hSound.effects⟩, hOpen⟩

theorem visitAll_eq_runAll (sites : List Site) :
    report.visitAll e sites = runAll (visit e) report sites := by
  induction sites generalizing report with
  | nil => rfl
  | cons site rest ih => simp only [visitAll, runAll, ih]

theorem visitAll_sound {sites : List Site} (hTable : e.opcode.HasRoom)
    (hSound : report.Sound e.opcode) (h : (report.visitAll e sites).result = .ok after) :
    after.Sound e.opcode := by
  rw [visitAll_eq_runAll] at h
  exact runAll_ok (fun _ _ _ hBefore hVisit => (visit_sound hTable hBefore hVisit).1) hSound h

theorem openMemory_sound (hSound : report.Sound e.opcode) (h : report.openMemory e = .ok after) :
    after.Sound e.opcode := by
  obtain ⟨operands, hStart, rfl⟩ := map_eq_ok_iff.mp h
  exact ⟨Cursor.fits_of_start rfl hStart, hSound.effects⟩

theorem closeMemory_sound {t : Template} (hSound : report.Sound t)
    (h : report.closeMemory = .ok after) : after.Sound t := by
  obtain ⟨operands, hClose, rfl⟩ := map_eq_ok_iff.mp h
  exact ⟨Cursor.fits_of_close hSound.operands hClose, hSound.effects⟩

theorem finish_sound (hTable : e.opcode.HasRoom) (hSound : report.Sound e.opcode)
    (h : report.finish e = .ok after) :
    after.Sound e.opcode ∧ after.operands.isOpen = report.operands.isOpen := by
  obtain ⟨hSame, hClosed⟩ := finish_operands h
  obtain ⟨settled, hFinish, hEffects⟩ := finish_progress hTable hSound.effects hClosed
  rw [hFinish] at h
  cases h
  exact ⟨⟨hSame ▸ hSound.operands, hEffects⟩, congrArg Cursor.isOpen hSame⟩

theorem fill_sound (hTable : e.opcode.HasRoom) (h : (fill e).result = .ok after) :
    after.Sound e.opcode := by
  obtain ⟨fresh, hFresh, hRest⟩ := Outcome.result_bind_eq_ok_iff.mp h
  obtain ⟨visited, hVisited, hFinish⟩ := Outcome.result_bind_eq_ok_iff.mp hRest
  have hSound := visitAll_sound hTable (initial_sound hTable hFresh) hVisited
  exact (finish_sound hTable hSound hFinish).1

/-- One step keeps the invariant, and a visit or a settling opens and closes
nothing. -/
theorem take_sound {step : Step} (hTable : e.opcode.HasRoom) (hSound : report.Sound e.opcode)
    (h : (report.take e step).result = .ok after) :
    after.Sound e.opcode ∧
      (step.leavesOpenness = true → after.operands.isOpen = report.operands.isOpen) := by
  cases step with
  | initial => exact ⟨initial_sound hTable h, nofun⟩
  | fill => exact ⟨fill_sound hTable h, nofun⟩
  | openMemory => exact ⟨openMemory_sound hSound h, nofun⟩
  | closeMemory => exact ⟨closeMemory_sound hSound h, nofun⟩
  | visit site =>
      obtain ⟨hAfter, hOpen⟩ := visit_sound hTable hSound h
      exact ⟨hAfter, fun _ => hOpen⟩
  | finish =>
      obtain ⟨hAfter, hOpen⟩ := finish_sound hTable hSound h
      exact ⟨hAfter, fun _ => hOpen⟩

theorem visit_fault {site : Site} {f : Fault} (hTable : e.opcode.HasRoom)
    (hSound : report.Sound e.opcode) (h : (report.visit e site).result = .error f) :
    f.isOfCursor = true := by
  cases site with
  | effect form i =>
      obtain ⟨effects, hApply, _⟩ := Effects.apply_sound hTable hSound.effects i form
      have hFault := map_eq_error_iff.mp h
      rw [hApply] at hFault
      contradiction
  | operand form i =>
      exact Cursor.applyAll_fault hSound.operands (form.edits_keeps e i) (map_eq_error_iff.mp h)

theorem visitAll_fault {sites : List Site} {f : Fault} (hTable : e.opcode.HasRoom)
    (hSound : report.Sound e.opcode) (h : (report.visitAll e sites).result = .error f) :
    f.isOfCursor = true := by
  have hFault : ∀ (before : Report) (site : Site) (f : Fault), before.Sound e.opcode →
      (before.visit e site).result = .error f → f.isOfCursor = true :=
    fun _ _ _ hBefore hVisit => visit_fault hTable hBefore hVisit
  rw [visitAll_eq_runAll] at h
  exact runAll_fault (fun _ _ _ hBefore hVisit => (visit_sound hTable hBefore hVisit).1) hFault
    hSound h

theorem finish_fault {f : Fault} (hTable : e.opcode.HasRoom) (hSound : report.Sound e.opcode)
    (h : report.finish e = .error f) : f.isOfAssembly = true := by
  cases hOpen : report.operands.isOpen with
  | true =>
      rw [finish, hOpen] at h
      cases h
      rfl
  | false =>
      obtain ⟨settled, hFinish, _⟩ := finish_progress hTable hSound.effects hOpen
      rw [hFinish] at h
      contradiction

theorem fill_fault {f : Fault} (hTable : e.opcode.HasRoom)
    (h : (fill e).result = .error f) : f.isOfAssembly = true := by
  rcases Outcome.result_bind_eq_error_iff.mp h with hInitial | ⟨fresh, hFresh, hRest⟩
  · obtain ⟨fresh, hFresh, _⟩ := initial_progress hTable
    rw [Outcome.result_ofResult, hFresh] at hInitial
    contradiction
  · have hFreshSound := initial_sound hTable hFresh
    rcases Outcome.result_bind_eq_error_iff.mp hRest with hVisit | ⟨visited, hVisited, hFinish⟩
    · exact Fault.isOfAssembly_of_isOfCursor (visitAll_fault hTable hFreshSound hVisit)
    · exact finish_fault hTable (visitAll_sound hTable hFreshSound hVisited) hFinish

/-- Under the invariant, a step only ends in a fault of the cursor, or of settling with
an open operand. -/
theorem take_fault {step : Step} {f : Fault} (hTable : e.opcode.HasRoom)
    (hSound : report.Sound e.opcode) (h : (report.take e step).result = .error f) :
    f.isOfAssembly = true := by
  cases step with
  | initial =>
      obtain ⟨fresh, hFresh, _⟩ := initial_progress hTable
      rw [take, Outcome.result_ofResult, hFresh] at h
      contradiction
  | fill => exact fill_fault hTable h
  | openMemory =>
      exact Fault.isOfAssembly_of_isOfCursor (Cursor.start_fault (map_eq_error_iff.mp h))
  | closeMemory =>
      exact Fault.isOfAssembly_of_isOfCursor (Cursor.close_fault (map_eq_error_iff.mp h))
  | visit site => exact Fault.isOfAssembly_of_isOfCursor (visit_fault hTable hSound h)
  | finish => exact finish_fault hTable hSound h

end Report

/-- Takes steps in order, up to the first fault. -/
def Instruction.takeAll (insn : Instruction) : List Step → Outcome Instruction
  | [] => .ok insn
  | step :: rest => (Instruction.take insn step).bind (takeAll · rest)

theorem takeAll_eq_runAll (insn : Instruction) (steps : List Step) :
    Instruction.takeAll insn steps = runAll Instruction.take insn steps := by
  induction steps generalizing insn with
  | nil => rfl
  | cons step rest ih => simp only [Instruction.takeAll, runAll, ih]

/-- The instruction carries a sound report on the fields of `e`. -/
def CarriesSound (e : Encoded) (insn : Instruction) : Prop :=
  ∃ report : Report, insn = { e with report := some report } ∧ report.Sound e.opcode

theorem take_carriesSound {e : Encoded} {insn after : Instruction} {step : Step}
    (hTable : e.opcode.HasRoom) (hSound : CarriesSound e insn)
    (h : (Instruction.take insn step).result = .ok after) : CarriesSound e after := by
  obtain ⟨report, rfl, hReport⟩ := hSound
  obtain ⟨next, hNext, rfl⟩ := map_eq_ok_iff.mp h
  exact ⟨next, rfl, (Report.take_sound hTable hReport hNext).1⟩

/-- A run keeps the invariant. -/
theorem takeAll_sound {e : Encoded} {report : Report} {steps : List Step} {after : Instruction}
    (hTable : e.opcode.HasRoom) (hSound : report.Sound e.opcode)
    (h : (Instruction.takeAll { e with report := some report } steps).result = .ok after) :
    CarriesSound e after := by
  rw [takeAll_eq_runAll] at h
  exact runAll_ok (fun _ _ _ hBefore hStep => take_carriesSound hTable hBefore hStep)
    ⟨report, rfl, hSound⟩ h

/-- A run only ends in a fault of the cursor, or of settling with an open operand. -/
theorem takeAll_fault {e : Encoded} {report : Report} {steps : List Step} {f : Fault}
    (hTable : e.opcode.HasRoom) (hSound : report.Sound e.opcode)
    (h : (Instruction.takeAll { e with report := some report } steps).result = .error f) :
    f.isOfAssembly = true := by
  have hFault : ∀ (before : Instruction) (step : Step) (f : Fault), CarriesSound e before →
      (Instruction.take before step).result = .error f → f.isOfAssembly = true := by
    rintro _ step f ⟨report, rfl, hReport⟩ hStep
    exact Report.take_fault hTable hReport (map_eq_error_iff.mp hStep)
  rw [takeAll_eq_runAll] at h
  exact runAll_fault (fun _ _ _ hBefore hStep => take_carriesSound hTable hBefore hStep) hFault
    ⟨report, rfl, hSound⟩ h

/-- After every completed step of every run on an accepted instruction the report is
sound, and a visit or a settling that comes next opens and closes nothing.  No step of
a run finds a set full, or an open operand that is no memory operand. -/
theorem takeAll_of_build {e : Encoded} {insn : Instruction} (hTable : e.opcode ∈ templates)
    (hBuild : Instruction.build e true = .ok insn) (steps : List Step) :
    (∀ after, (Instruction.takeAll insn steps).result = .ok after →
      ∃ report : Report, after = { e with report := some report } ∧ report.Sound e.opcode ∧
        ∀ step next, step.leavesOpenness = true →
          (Instruction.take after step).result = .ok next →
          ∃ later : Report, next = { e with report := some later } ∧
            later.operands.isOpen = report.operands.isOpen) ∧
    ∀ f, (Instruction.takeAll insn steps).result = .error f →
      (∀ capacity, f ≠ .setFull capacity) ∧ f ≠ .openOperandNotMemory := by
  have hRoom := hasRoom_of_mem_templates hTable
  have hFresh : (default : Report).Sound e.opcode := Report.sound_default e.opcode
  obtain ⟨_, rfl⟩ := takes_of_build hBuild
  constructor
  · intro after hRun
    obtain ⟨report, rfl, hSound⟩ := takeAll_sound hRoom hFresh hRun
    refine ⟨report, rfl, hSound, ?_⟩
    intro step next hLeaves hStep
    obtain ⟨later, hLater, rfl⟩ := map_eq_ok_iff.mp hStep
    exact ⟨later, rfl, (Report.take_sound hRoom hSound hLater).2 hLeaves⟩
  · intro f hRun
    have hFault := takeAll_fault hRoom hFresh hRun
    refine ⟨?_, ?_⟩
    · rintro capacity rfl
      contradiction
    · rintro rfl
      contradiction

/-- A load of a word at an offset from a base register. -/
def loadWord : Encoded where
  opcode := (templates.find? (·.name == "LDRi12")).get (by decide +kernel)
  fields := [.register 32, .register 33, .immediate 4, .immediate 14, .register 0]

/-- A memory operand is put together in single steps: opened, given its base, closed. -/
theorem takeAll_loadWord :
    loadWord.opcode ∈ templates ∧
      Instruction.build loadWord true = .ok { loadWord with report := some (default : Report) } ∧
      ∃ report : Report,
        (Instruction.takeAll { loadWord with report := some (default : Report) }
          [.initial, .openMemory, .visit (.operand .plain 1), .closeMemory, .finish]).result =
            .ok { loadWord with report := some report } ∧ report.Sound loadWord.opcode := by
  have hTable : loadWord.opcode ∈ templates := by
    dsimp only [loadWord]
    exact List.get_find?_mem _
  have hBuild : Instruction.build loadWord true =
      .ok { loadWord with report := some (default : Report) } := rfl
  obtain ⟨report, hReport, hSound, _⟩ := (takeAll_of_build hTable hBuild
    [.initial, .openMemory, .visit (.operand .plain 1), .closeMemory, .finish]).1 _ rfl
  exact ⟨hTable, hBuild, report, congrArg Except.ok hReport, hSound⟩

end OperandReport.Arm
