import OperandReport.Power.Screening
import OperandReport.Proofs.Arm.Agreement
import OperandReport.Proofs.Arm.Bracketing
import OperandReport.Proofs.Power.Agreement

/-!
# Windows

The width of a form is declared apart from what the form reads.  This module says that
the two fit: a site reads no field outside its window, the register list excepted, and
in the table all windows stay within the slots.  A filled report then depends on no
field behind the last slot: whatever stands there, filling ends the same way.

## Main results

* `Arm.Report.fill_append`, `Power.Report.fill_append`: filling does not read on behind
  the fields of a screened instruction.
* `visit_congr_of_window`: both architectures together, with what a visit reads.
-/

namespace OperandReport

/-! ## ARM -/

namespace Arm

/-- In the table every window stays within the slots. -/
theorem windows_of_mem_templates {t : Template} (ht : t ∈ templates) :
    ∀ site ∈ t.sites, site.slot + site.width ≤ t.slots.length := by
  have hAll : ∀ t ∈ templates, ∀ site ∈ t.sites, site.slot + site.width ≤ t.slots.length := by
    decide +kernel
  exact hAll t ht

/-- Two instructions that agree on the window of a site agree on all that it reads, unless
it is a register list. -/
theorem Site.agrees_of_agreeOn {e e' : Encoded} {site : Site}
    (hSite : ∀ i, site ≠ .operand .registerList i)
    (hWindow : e.AgreeOn e' site.slot site.width) : site.Agrees e e' := by
  cases site with
  | effect form i => exact hWindow
  | operand form i =>
      have hForm : form.readsOn = false := by
        cases form with
        | registerList => exact absurd rfl (hSite i)
        | _ => rfl
      simp only [Agrees, hForm]
      exact hWindow

/-- Without a repeating slot there is no register list. -/
theorem Site.ne_registerList_of_listsLast {t : Template} {site : Site}
    (hVariadic : t.variadic = false) (hLast : site.listsLast t = true) :
    ∀ i, site ≠ .operand .registerList i := by
  rintro i rfl
  simp [listsLast, hVariadic] at hLast

/-- In a screened instruction without a repeating slot every window stays within the
fields. -/
theorem windows_of_build {e : Encoded} {detail : Bool} {insn : Instruction}
    (hTable : e.opcode ∈ templates) (hVariadic : e.opcode.variadic = false)
    (hBuild : Instruction.build e detail = .ok insn) :
    ∀ site ∈ e.opcode.sites, site.slot + site.width ≤ e.fields.length := by
  have hTakes := (takes_of_build hBuild).1
  have hLength : e.fields.length = e.opcode.slots.length := by
    simpa [Template.takes, hVariadic] using hTakes
  rw [hLength]
  exact windows_of_mem_templates hTable

/-- Filling does not read on behind the last field. -/
theorem Report.fill_append {e : Encoded} {detail : Bool} {insn : Instruction}
    (hTable : e.opcode ∈ templates) (hVariadic : e.opcode.variadic = false)
    (hBuild : Instruction.build e detail = .ok insn) (more : List Field) :
    fill { e with fields := e.fields ++ more } = fill e := by
  have hWindows := windows_of_build hTable hVariadic hBuild
  have hLists := (wellPlaced_of_mem_templates hTable).lists
  refine (fill_congr (sameContext_fields e _) fun site hSite => ?_).symm
  exact Site.agrees_of_agreeOn (Site.ne_registerList_of_listsLast hVariadic (hLists site hSite))
    (e.agreeOn_append more (hWindows site hSite))

end Arm

/-! ## PowerPC -/

namespace Power

/-- The source is a constant or one of the first fields, `count` of them. -/
def ConditionSource.isWithin (count : Nat) : ConditionSource → Bool
  | constant _ => true
  | slot i => i < count

/-- In the table every window stays within the slots, and so do the fields of a branch
condition. -/
theorem windows_of_mem_templates {t : Template} (ht : t ∈ templates) :
    (∀ site ∈ t.sites, site.slot + site.width ≤ t.slots.length) ∧
      ∀ source ∈ t.conditionSources, source.isWithin t.slots.length = true := by
  have hAll : ∀ t ∈ templates,
      (∀ site ∈ t.sites, site.slot + site.width ≤ t.slots.length) ∧
        ∀ source ∈ t.conditionSources, source.isWithin t.slots.length = true := by
    decide +kernel
  exact hAll t ht

/-- A screened instruction has one field for each slot. -/
theorem length_of_build {e : Encoded} {detail : Bool} {insn : Instruction}
    (h : Instruction.build e detail = .ok insn) : e.fields.length = e.opcode.slots.length := by
  unfold Instruction.build Template.screen screen at h
  split at h
  · next hTakes => exact beq_iff_eq.mp hTakes
  · contradiction

/-- In a screened instruction every window stays within the fields. -/
theorem windows_of_build {e : Encoded} {detail : Bool} {insn : Instruction}
    (hTable : e.opcode ∈ templates) (hBuild : Instruction.build e detail = .ok insn) :
    ∀ site ∈ e.opcode.sites, site.slot + site.width ≤ e.fields.length := by
  rw [length_of_build hBuild]
  exact (windows_of_mem_templates hTable).1

/-- Filling does not read on behind the last field. -/
theorem Report.fill_append {e : Encoded} {detail : Bool} {insn : Instruction}
    (hTable : e.opcode ∈ templates) (hBuild : Instruction.build e detail = .ok insn)
    (more : List Field) : fill { e with fields := e.fields ++ more } = fill e := by
  have hWindows := windows_of_build hTable hBuild
  have hWithin := (windows_of_mem_templates hTable).2
  refine (fill_congr (sameContext_fields e _) (fun source hSource => ?_) fun site hSite =>
    e.agreeOn_append more (hWindows site hSite)).symm
  cases source with
  | constant n => trivial
  | slot i =>
      have hSlot : i < e.opcode.slots.length := by
        simpa [ConditionSource.isWithin] using hWithin _ hSource
      rw [← length_of_build hBuild] at hSlot
      have hWindow : e.AgreeOn { e with fields := e.fields ++ more } i 1 :=
        e.agreeOn_append more hSlot
      exact hWindow i (Nat.le_refl i) (Nat.lt_succ_self i)

end Power

/-! ## Both -/

/-- A visit of a site reads no field outside the window of the site, unless the site is a
register list: where the fields of the window are the same it ends in the same report or
the same fault.  All windows of a screened instruction without a register list stay within
its fields, and fields behind the last one make no difference to filling. -/
theorem visit_congr_of_window :
    (∀ (e : Arm.Encoded) (fields : List Field) (report : Arm.Report) (site : Arm.Site),
      (∀ i, site ≠ .operand .registerList i) →
      e.AgreeOn { e with fields } site.slot site.width →
      report.visit e site = report.visit { e with fields } site) ∧
    (∀ (e : Power.Encoded) (fields : List Field) (report : Power.Report) (site : Power.Site),
      e.AgreeOn { e with fields } site.slot site.width →
      report.visit e site = report.visit { e with fields } site) ∧
    (∀ (e : Arm.Encoded) (detail : Bool) (insn : Arm.Instruction),
      e.opcode ∈ Arm.templates → e.opcode.variadic = false →
      Arm.Instruction.build e detail = .ok insn →
      (∀ site ∈ e.opcode.sites, site.slot + site.width ≤ e.fields.length) ∧
      ∀ more, Arm.Report.fill { e with fields := e.fields ++ more } = Arm.Report.fill e) ∧
    (∀ (e : Power.Encoded) (detail : Bool) (insn : Power.Instruction),
      e.opcode ∈ Power.templates → Power.Instruction.build e detail = .ok insn →
      (∀ site ∈ e.opcode.sites, site.slot + site.width ≤ e.fields.length) ∧
      ∀ more, Power.Report.fill { e with fields := e.fields ++ more } = Power.Report.fill e) := by
  refine ⟨?_, ?_, ?_, ?_⟩
  · intro e fields report site hSite hWindow
    exact Arm.Report.visit_congr (Arm.sameContext_fields e fields)
      (Arm.Site.agrees_of_agreeOn hSite hWindow) report
  · intro e fields report site hWindow
    exact Power.Report.visit_congr (Power.sameContext_fields e fields) hWindow report
  · intro e detail insn hTable hVariadic hBuild
    exact ⟨Arm.windows_of_build hTable hVariadic hBuild,
      Arm.Report.fill_append hTable hVariadic hBuild⟩
  · intro e detail insn hTable hBuild
    exact ⟨Power.windows_of_build hTable hBuild, Power.Report.fill_append hTable hBuild⟩

/-- A branch that spells out its condition. -/
def Power.branchIfEqual : Power.Encoded where
  opcode := (Power.templates.find? (·.name == "gBC")).get (by decide +kernel)
  fields := [.immediate 12, .register 179, .immediate 64]

/-- The post-indexed address of a load reads neither the register that is loaded nor the
predicate.  Neither the load nor a branch reads on behind its last field. -/
theorem visit_congr_of_window_loadHalfwordPost :
    (∀ report : Arm.Report,
      report.visit Arm.loadHalfwordPost (.operand (.mode3 false) 1) =
        report.visit { Arm.loadHalfwordPost with
          fields := [.vacant, .register 33, .register 0, .immediate 0x444] }
          (.operand (.mode3 false) 1)) ∧
    (∀ report : Power.Report,
      report.visit Power.branchIfEqual (.operand .branch 2) =
        report.visit { Power.branchIfEqual with fields := [.vacant, .vacant, .immediate 64] }
          (.operand .branch 2)) ∧
    Arm.Report.fill { Arm.loadHalfwordPost with
      fields := Arm.loadHalfwordPost.fields ++ [.register 32] } =
        Arm.Report.fill Arm.loadHalfwordPost ∧
    Power.Report.fill { Power.branchIfEqual with
      fields := Power.branchIfEqual.fields ++ [.register 32] } =
        Power.Report.fill Power.branchIfEqual := by
  have hLoad : Arm.loadHalfwordPost.opcode ∈ Arm.templates := by
    dsimp only [Arm.loadHalfwordPost]
    exact List.get_find?_mem _
  have hBranch : Power.branchIfEqual.opcode ∈ Power.templates := by
    dsimp only [Power.branchIfEqual]
    exact List.get_find?_mem _
  obtain ⟨hArm, hPower, hArmFill, hPowerFill⟩ := visit_congr_of_window
  refine ⟨fun report => ?_, fun report => ?_, ?_, ?_⟩
  · refine hArm _ _ report _ (fun i => by simp) fun k hFirst hLast => ?_
    have hEach : k = 1 ∨ k = 2 ∨ k = 3 := by
      change 1 ≤ k at hFirst
      change k < 1 + 3 at hLast
      omega
    rcases hEach with rfl | rfl | rfl <;> rfl
  · refine hPower _ _ report _ fun k hFirst hLast => ?_
    have hOnly : k = 2 := by
      change 2 ≤ k at hFirst
      change k < 2 + 1 at hLast
      omega
    cases hOnly
    rfl
  · exact (hArmFill _ true _ hLoad rfl rfl).2 _
  · exact (hPowerFill _ true _ hBranch rfl).2 _

end OperandReport
