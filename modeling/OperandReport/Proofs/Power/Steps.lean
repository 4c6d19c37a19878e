import OperandReport.Proofs.Power.Fill
import OperandReport.Proofs.Runs

/-!
# Runs of single steps

The steps of the assembly may be taken one by one, in any order, with any form at any
field, whether the template has such a site or not.  A run may end in a fault, but up to
there every report is `Sound`: the operands fit together with the open one, which is a
memory operand; the condition is a decoded one, wherever it came from and whichever form
changed its hint last; and the sets hold nothing but the members that the template allows.

Each step has a lemma that carries the invariant over it and another one for the faults
in which it can end; a run has both by induction.

## Main results

* `Report.take_sound`, `Report.take_fault`: one step.
* `takeAll_of_screened`: every run on a screened instruction.
-/

namespace OperandReport.Power

/-! ## Conditions -/

/-- The number of the condition field of a decoded condition is one of a field. -/
theorem Condition.Decoded.build_field {c : Condition} (h : c.Decoded) :
    Register.build .conditionField (c.bi / 4) = .ok c.field := by
  obtain ⟨n, hBound, hPlace, hField⟩ := h.sound.field
  have hCount : c.bi / 4 < Register.Family.conditionField.count := by
    show c.bi / 4 < 8
    omega
  rw [Register.build, if_pos hCount, hField, hPlace, Register.conditionField]

/-- A decoded condition makes no test of the condition register just if bit 4 of `bo` is
set. -/
theorem Condition.Decoded.test_eq_none_iff {c : Condition} (h : c.Decoded) :
    c.test = none ↔ c.bo / 16 % 2 = 1 := by
  rw [congrArg test h.decoded]
  by_cases hClear : c.bo / 16 % 2 = 0
  · simp [decode, hClear]
  · have hSet : c.bo / 16 % 2 = 1 := by omega
    simp [decode, hSet]

/-- It makes no test of the count just if bit 2 of `bo` is set. -/
theorem Condition.Decoded.countTest_eq_none_iff {c : Condition} (h : c.Decoded) :
    c.countTest = none ↔ c.bo / 4 % 2 = 1 := by
  rw [congrArg countTest h.decoded]
  by_cases hClear : c.bo / 4 % 2 = 0
  · simp [decode, hClear]
  · have hSet : c.bo / 4 % 2 = 1 := by omega
    simp [decode, hSet]

namespace Report

/-- The operands fit, the open one is a memory operand, the condition is a decoded one, and
the effects are sound. -/
structure Sound (t : Template) (report : Report) : Prop where
  operands : report.operands.Fits (·.isMemory = true)
  condition : ∀ c ∈ report.condition, c.Decoded
  effects : report.effects.Sound t

theorem sound_default (t : Template) : (default : Report).Sound t where
  operands := Cursor.fits_empty _
  condition := nofun
  effects := Effects.sound_default t

/-! ## What a step preserves -/

section

variable {e : Encoded} {report after : Report}

theorem initial_sound (hTable : e.opcode.WellFormed) (h : (initial e).result = .ok after) :
    after.Sound e.opcode := by
  obtain ⟨condition, effects, _, _, hInitial, hDecoded, hSound, _⟩ := initial_progress hTable
  cases hInitial.symm.trans h
  exact ⟨Cursor.fits_empty _, hDecoded, hSound⟩

theorem visit_sound {site : Site} (hSound : report.Sound e.opcode)
    (h : (report.visit e site).result = .ok after) : after.Sound e.opcode := by
  cases site with
  | condition form i =>
      cases h
      exact { hSound with condition := form.apply_decoded e i hSound.condition }
  | operand form i =>
      obtain ⟨operands, hApply, rfl⟩ := map_eq_ok_iff.mp h
      have hFits := Cursor.applyAll_fits hSound.operands (form.edits_keeps e i _) hApply
      exact { hSound with operands := hFits.1 }

theorem openMemory_sound (hSound : report.Sound e.opcode) (h : report.openMemory e = .ok after) :
    after.Sound e.opcode := by
  obtain ⟨operands, hStart, rfl⟩ := map_eq_ok_iff.mp h
  exact { hSound with operands := Cursor.fits_of_start rfl hStart }

theorem closeMemory_sound {t : Template} (hSound : report.Sound t)
    (h : report.closeMemory = .ok after) : after.Sound t := by
  obtain ⟨operands, hClose, rfl⟩ := map_eq_ok_iff.mp h
  exact { hSound with operands := Cursor.fits_of_close hSound.operands hClose }

theorem visitAll_eq_runAll (sites : List Site) :
    report.visitAll e sites = runAll (visit e) report sites := by
  induction sites generalizing report with
  | nil => rfl
  | cons site rest ih =>
      simp only [visitAll, runAll, ih]

/-- Settling succeeds just if nothing is open. -/
theorem finish_cases (hTable : e.opcode.WellFormed) (hSound : report.Sound e.opcode) :
    (∃ effects, report.finish e = .ok { report with effects } ∧ effects.Sound e.opcode) ∨
      report.finish e = .error (.leftOpen e.opcode.name) := by
  cases hOpen : report.operands.isOpen with
  | true =>
      right
      rw [finish, hOpen]
      rfl
  | false =>
      left
      obtain ⟨effects, hSettle, hAfter, _⟩ :=
        Effects.settle_sound hTable.sets hSound.effects report.condition
      refine ⟨effects, ?_, hAfter⟩
      rw [finish_of_closed hOpen, hSettle]
      rfl

theorem finish_sound (hTable : e.opcode.WellFormed) (hSound : report.Sound e.opcode)
    (h : report.finish e = .ok after) : after.Sound e.opcode := by
  rcases finish_cases hTable hSound with ⟨effects, hFinish, hEffects⟩ | hFinish
  · cases hFinish.symm.trans h
    exact { hSound with effects := hEffects }
  · cases hFinish.symm.trans h

theorem fill_sound (hTable : e.opcode.WellFormed) (h : (fill e).result = .ok after) :
    after.Sound e.opcode := by
  obtain ⟨fresh, hFresh, hRest⟩ := Outcome.result_bind_eq_ok_iff.mp h
  obtain ⟨visited, hVisited, hFinish⟩ := Outcome.result_bind_eq_ok_iff.mp hRest
  rw [visitAll_eq_runAll] at hVisited
  have hSound := runAll_ok (fun _ _ _ => visit_sound) (initial_sound hTable hFresh) hVisited
  exact finish_sound hTable hSound hFinish

/-- One step preserves the invariant. -/
theorem take_sound {step : Step} (hTable : e.opcode.WellFormed) (hSound : report.Sound e.opcode)
    (h : (report.take e step).result = .ok after) : after.Sound e.opcode := by
  cases step with
  | initial => exact initial_sound hTable h
  | fill => exact fill_sound hTable h
  | openMemory => exact openMemory_sound hSound h
  | closeMemory => exact closeMemory_sound hSound h
  | visit site => exact visit_sound hSound h
  | finish => exact finish_sound hTable hSound h

/-! ## In which faults a step can end -/

theorem visit_fault {site : Site} {f : Fault} (hSound : report.Sound e.opcode)
    (h : (report.visit e site).result = .error f) : f.isOfCursor = true := by
  cases site with
  | condition form i => contradiction
  | operand form i =>
      exact Cursor.applyAll_fault hSound.operands (form.edits_keeps e i _) (map_eq_error_iff.mp h)

/-- A step that begins anew ends in no fault; the others end in one of the cursor, or of
settling with an open operand. -/
theorem take_fault {step : Step} {f : Fault} (hTable : e.opcode.WellFormed)
    (hSound : report.Sound e.opcode) (h : (report.take e step).result = .error f) :
    f.isOfAssembly = true := by
  cases step with
  | initial =>
      obtain ⟨_, _, _, _, hInitial, _⟩ := initial_progress hTable
      cases hInitial.symm.trans h
  | fill =>
      obtain ⟨_, _, _, _, _, _, hFill⟩ := fill_of_wellFormed hTable
      cases hFill.symm.trans h
  | openMemory =>
      exact Fault.isOfAssembly_of_isOfCursor (Cursor.start_fault (map_eq_error_iff.mp h))
  | closeMemory =>
      exact Fault.isOfAssembly_of_isOfCursor (Cursor.close_fault (map_eq_error_iff.mp h))
  | visit site => exact Fault.isOfAssembly_of_isOfCursor (visit_fault hSound h)
  | finish =>
      rcases finish_cases hTable hSound with ⟨effects, hFinish, _⟩ | hFinish
      · cases hFinish.symm.trans h
      · cases hFinish.symm.trans h
        rfl

end

end Report

/-! ## Runs -/

/-- Takes steps in order, up to the first fault. -/
def Instruction.takeAll (insn : Instruction) (steps : List Step) : Outcome Instruction :=
  runAll Instruction.take insn steps

/-- The instruction carries a sound report on the fields of `e`. -/
def CarriesSound (e : Encoded) (insn : Instruction) : Prop :=
  ∃ report : Report, insn = { e with report := some report } ∧ report.Sound e.opcode

/-- One step on an instruction with a sound report leaves a sound report. -/
theorem take_carriesSound {e : Encoded} {insn after : Instruction} {step : Step}
    (hTable : e.opcode.WellFormed) (hSound : CarriesSound e insn)
    (h : (insn.take step).result = .ok after) : CarriesSound e after := by
  obtain ⟨report, rfl, hReport⟩ := hSound
  obtain ⟨next, hNext, rfl⟩ := map_eq_ok_iff.mp h
  exact ⟨next, rfl, Report.take_sound hTable hReport hNext⟩

/-- The faults in which a step on such an instruction can end. -/
theorem isOfAssembly_of_take {e : Encoded} {insn : Instruction} {step : Step} {f : Fault}
    (hTable : e.opcode.WellFormed) (hSound : CarriesSound e insn)
    (h : (insn.take step).result = .error f) : f.isOfAssembly = true := by
  obtain ⟨report, rfl, hReport⟩ := hSound
  exact Report.take_fault hTable hReport (map_eq_error_iff.mp h)

/-- Every completed run of steps on a screened instruction leaves a report that is sound
for its template: at most eight operands, counting the open one, which is a memory operand;
distinct implicit registers and groups out of the template, the count register and the jump
group; and a condition that is decoded from its fields but for the hint, so that it names the
field of its bit and makes just those tests that `bo` asks for.  A run that ends in a fault
never does so for a full set, an open operand of a wrong kind or the number of a register;
the condition field that decoding computes is always one of the eight. -/
theorem takeAll_of_screened {e : Encoded} {insn : Instruction} (hTable : e.opcode ∈ templates)
    (hBuild : Instruction.build e true = .ok insn) (steps : List Step) :
    (∀ after, (insn.takeAll steps).result = .ok after →
      ∃ report : Report, after = { e with report := some report } ∧ report.Sound e.opcode ∧
        ∀ c, report.condition = some c →
          Register.build .conditionField (c.bi / 4) = .ok c.field ∧
          (c.test = none ↔ c.bo / 16 % 2 = 1) ∧ (c.countTest = none ↔ c.bo / 4 % 2 = 1)) ∧
    (∀ f, (insn.takeAll steps).result = .error f →
      (∀ capacity, f ≠ .setFull capacity) ∧ f ≠ .openOperandNotMemory ∧ f ≠ .registerNumber) ∧
    ∀ bo bi, Register.build .conditionField ((Condition.decode bo bi).bi / 4) =
      .ok (Condition.decode bo bi).field := by
  have hFormed := wellFormed_of_mem_templates hTable
  have hStart : CarriesSound e insn :=
    ⟨default, eq_ofEncoded_of_build hBuild, Report.sound_default e.opcode⟩
  have hStep : ∀ insn step after, CarriesSound e insn →
      (Instruction.take insn step).result = .ok after → CarriesSound e after :=
    fun _ _ _ hSound h => take_carriesSound hFormed hSound h
  refine ⟨?_, ?_, fun bo bi => (Condition.decode_decoded bo bi).build_field⟩
  · intro after hRun
    obtain ⟨report, rfl, hSound⟩ := runAll_ok hStep hStart hRun
    refine ⟨report, rfl, hSound, fun c hc => ?_⟩
    have hDecoded := hSound.condition c hc
    exact ⟨hDecoded.build_field, hDecoded.test_eq_none_iff, hDecoded.countTest_eq_none_iff⟩
  · intro f hRun
    have hEnds : ∀ insn step f, CarriesSound e insn →
        (Instruction.take insn step).result = .error f → f.isOfAssembly = true :=
      fun _ _ _ hSound h => isOfAssembly_of_take hFormed hSound h
    have hFault : f.isOfAssembly = true := runAll_fault hStep hEnds hStart hRun
    refine ⟨?_, ?_, ?_⟩
    · rintro capacity rfl
      contradiction
    · rintro rfl
      contradiction
    · rintro rfl
      contradiction

/-- A call that counts down whatever the condition register holds. -/
def callWhileCounting : Encoded where
  opcode := (templates.find? (·.name == "gBCL")).get (by decide +kernel)
  fields := [.immediate 16, .register 177, .immediate 64]

/-- A form that is no site of the template may change the hint on the way: the condition
stays a decoded one, and settling it lists the count register. -/
theorem takeAll_callWhileCounting :
    callWhileCounting.opcode ∈ templates ∧
      Instruction.build callWhileCounting true =
        .ok { callWhileCounting with report := some (default : Report) } ∧
      ∃ report : Report,
        (Instruction.takeAll { callWhileCounting with report := some (default : Report) }
          [.initial, .visit (.condition .hint 2), .visit (.operand .indexed 1), .openMemory,
            .visit (.condition .predicateHint 0), .closeMemory, .finish]).result =
            .ok { callWhileCounting with report := some report } ∧
        report.Sound callWhileCounting.opcode ∧
        report.condition = some (.decode 16 0) ∧
        report.effects.reads.items = [.ctr] := by
  have hTable : callWhileCounting.opcode ∈ templates := by
    dsimp only [callWhileCounting]
    exact List.get_find?_mem _
  have hBuild : Instruction.build callWhileCounting true =
      .ok { callWhileCounting with report := some (default : Report) } := rfl
  obtain ⟨report, hReport, hSound, _⟩ := (takeAll_of_screened hTable hBuild
    [.initial, .visit (.condition .hint 2), .visit (.operand .indexed 1), .openMemory,
      .visit (.condition .predicateHint 0), .closeMemory, .finish]).1 _ rfl
  cases hReport
  exact ⟨hTable, hBuild, _, rfl, hSound, rfl, rfl⟩

end OperandReport.Power
