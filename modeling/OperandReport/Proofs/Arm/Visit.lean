import OperandReport.Arm.Assembly
import OperandReport.Proofs.Arm.Contribution
import OperandReport.Proofs.Arm.Effects

/-!
# Visiting sites

A report is assembled by visiting sites in order.  While no memory operand is open,
what a visit does is known from the encoded instruction alone: `visit_of_additive`
and `visit_of_looksBack` say it as equations, with the two faults that remain, no
room and nothing to look back at.

`Stage e sites report` says where such a run stands: nothing is open, and up to
later annotations the operands are those that the visited sites complete, in order.
A step lemma carries it over one site and a run lemma over all of them.

Whether a run ends in a fault is then a matter of the sites alone.  A site is
`Stranded` if it annotates and nothing was completed before it.

## Main results

* `Report.visitAll_stage`: what the operands are after a run.
* `Report.visitAll_maintains`: what all operands keep over a run.
* `Report.visitAll_progress`: with room for all operands, a run is stranded and ends
  in the look-back fault, or it is not and gives a report.
-/

namespace OperandReport.Arm

namespace Site

/-- What the site completes while nothing is open. -/
def completed (e : Encoded) : Site → List Operand
  | effect .. => []
  | operand form i => Edit.completedBy (form.edits e i)

/-- The site annotates the operand before it and adds none. -/
def looksBack : Site → Bool
  | effect .. => false
  | operand form _ => form.looksBack

/-- The site finds something to annotate the operand before it with. -/
def annotates (e : Encoded) : Site → Bool
  | effect .. => false
  | operand form i => form.annotates e i

/-- The site opens and closes a memory operand. -/
def brackets (e : Encoded) : Site → Bool
  | effect .. => false
  | operand form i => form.brackets e i

/-- The site is no empty fixed shift. -/
def shifts : Site → Bool
  | effect .. => true
  | operand form _ => form.shifts

theorem looksBack_of_annotates {e : Encoded} {site : Site} (h : site.annotates e = true) :
    site.looksBack = true := by
  cases site with
  | effect form i => contradiction
  | operand form i => exact OperandForm.looksBack_of_annotates h

/-- A field that names a register is completed as it is. -/
theorem completed_plain_of_register {e : Encoded} {i : Nat} (h : e.registerId i ≠ 0) :
    completed e (.operand .plain i) = [.ofRegister (registerAt e i) (accessAt e i)] := by
  show Edit.completedBy (plainEdits e i) = _
  unfold Encoded.registerId at h
  unfold plainEdits
  cases hField : e.field i with
  | vacant => simp [hField] at h
  | immediate v => simp [hField] at h
  | register id =>
      rw [hField] at h
      dsimp only at h ⊢
      rw [if_neg h]
      rfl

/-- No site but a register list completes more than four operands. -/
theorem length_completed_le_four (e : Encoded) {site : Site}
    (hList : ∀ i, site ≠ .operand .registerList i) : (site.completed e).length ≤ 4 := by
  cases site with
  | effect form i => exact Nat.zero_le 4
  | operand form i =>
      cases hForm : form.looksBack with
      | true =>
          show (Edit.completedBy (form.edits e i)).length ≤ 4
          rw [form.completedBy_of_looksBack e i hForm]
          exact Nat.zero_le 4
      | false =>
          have hCount := (form.contributes e i hForm).count
          have hMost : form.most e i = 4 := by
            cases form with
            | registerList => exact absurd rfl (hList i)
            | _ => rfl
          rw [← hMost]
          exact hCount

end Site

/-- With nothing open and room for the operands, a visit completes just these and changes
nothing else. -/
def Site.Adds (e : Encoded) (site : Site) (ops : List Operand) : Prop :=
  ∀ report : Report, report.operands.isOpen = false →
    report.operands.length + ops.length ≤ operandCapacity →
    (report.visit e site).result =
      .ok { report with operands := report.operands.extend ops }

/-- The fault of a site that finds no operand to look back at. -/
def nothingBefore : Fault := .operandMissing (-1) 0 false

namespace Report

/-- What the sites have completed so far is there, and nothing is open. -/
structure Stage (e : Encoded) (sites : List Site) (report : Report) : Prop where
  atRest : report.operands.AtRest
  operands : report.operands.toList.map Operand.bare =
    (sites.flatMap (Site.completed e)).map Operand.bare

theorem Stage.length {e : Encoded} {sites : List Site} {report : Report}
    (hStage : Stage e sites report) :
    report.operands.length = (sites.flatMap (Site.completed e)).length := by
  have hCount := congrArg List.length hStage.operands
  simpa using hCount

/-- A form that adds operands completes them, or finds the report full. -/
theorem visit_of_additive {e : Encoded} {report : Report} (hRest : report.operands.AtRest)
    {form : OperandForm} (hForm : form.looksBack = false) (i : Nat) :
    (report.visit e (.operand form i)).result =
      if report.operands.length + (Site.completed e (.operand form i)).length ≤ operandCapacity
      then .ok { report with
        operands := report.operands.extend (Site.completed e (.operand form i)) }
      else .error (.operandsFull operandCapacity) :=
  Cursor.map_applyAll_of_additive hRest (form.contributes e i hForm).additive _

/-- A form that adds operands adds those that its edits complete. -/
theorem adds_of_additive {e : Encoded} {form : OperandForm} {i : Nat} {ops : List Operand}
    (hForm : form.looksBack = false) (hOps : Edit.completedBy (form.edits e i) = ops) :
    Site.Adds e (.operand form i) ops := by
  intro report hClosed hRoom
  have hRest : report.operands.AtRest := ⟨hClosed, Nat.le_trans (Nat.le_add_right _ _) hRoom⟩
  have hCompleted : Site.completed e (.operand form i) = ops := hOps
  rw [visit_of_additive hRest hForm i, hCompleted, if_pos hRoom]

private theorem applyAll_of_annotates {c : Cursor Operand operandCapacity} (hRest : c.AtRest)
    {found : Bool} {edits : List (Edit Operand)} (hEdits : OperandForm.Annotates found edits) :
    Edit.completedBy edits = [] ∧
      ∃ change : Operand → Operand, OperandForm.KeepsBare change ∧
        (c.applyAll edits).result =
          if found = true then
            if c.length = 0 then .error nothingBefore else .ok (c.modifyLast change)
          else .ok c := by
  cases hEdits with
  | nothing => exact ⟨rfl, id, fun _ => rfl, rfl⟩
  | @change change hBare =>
      refine ⟨rfl, change, hBare, ?_⟩
      have hAmend := Cursor.amend_of_atRest hRest change
      rw [if_pos rfl]
      split
      · next hZero =>
        rw [if_pos hZero] at hAmend
        exact Outcome.result_bind_error (x := .ofResult (c.amend change)) hAmend
      · next hSome =>
        rw [if_neg hSome] at hAmend
        exact Outcome.result_bind_ok (x := .ofResult (c.amend change)) hAmend

/-- A form that looks back adds nothing; it changes the newest operand, or finds
none. -/
theorem visit_of_looksBack {e : Encoded} {report : Report} (hRest : report.operands.AtRest)
    {form : OperandForm} (hForm : form.looksBack = true) (i : Nat) :
    Site.completed e (.operand form i) = [] ∧
      ∃ change : Operand → Operand, OperandForm.KeepsBare change ∧
        (report.visit e (.operand form i)).result =
          if (form.annotates e i && form.shifts) = true then
            if report.operands.length = 0 then .error nothingBefore
            else .ok { report with operands := report.operands.modifyLast change }
          else .ok report := by
  obtain ⟨hNone, change, hBare, hApply⟩ :=
    applyAll_of_annotates hRest (form.edits_of_looksBack e i hForm)
  refine ⟨hNone, change, hBare, ?_⟩
  show ((report.operands.applyAll (form.edits e i)).result.map _) = _
  rw [hApply]
  split
  · split
    · rfl
    · rfl
  · rfl

/-- One site carries the stage on. -/
theorem visit_stage {e : Encoded} {before : List Site} {site : Site} {report after : Report}
    (hStage : Stage e before report) (h : (report.visit e site).result = .ok after) :
    Stage e (before ++ [site]) after := by
  have hRest := hStage.atRest
  cases site with
  | effect form i =>
      have hSame := visit_effect h
      refine ⟨hSame ▸ hRest, ?_⟩
      rw [hSame, hStage.operands]
      simp [Site.completed]
  | operand form i =>
      cases hForm : form.looksBack with
      | false =>
          rw [visit_of_additive hRest hForm i] at h
          split at h
          · next hRoom =>
            cases h
            refine ⟨Cursor.atRest_extend hRest hRoom, ?_⟩
            rw [Cursor.toList_extend, List.map_append, hStage.operands]
            simp
          · contradiction
      | true =>
          obtain ⟨hNone, change, hBare, hVisit⟩ := visit_of_looksBack (e := e) hRest hForm i
          have hOperands : (before ++ [Site.operand form i]).flatMap (Site.completed e) =
              before.flatMap (Site.completed e) := by
            simp [hNone]
          rw [hVisit] at h
          split at h
          · split at h
            · contradiction
            · cases h
              refine ⟨Cursor.atRest_modifyLast hRest change, ?_⟩
              rw [hOperands, Cursor.map_toList_modifyLast hBare]
              exact hStage.operands
          · cases h
            exact ⟨hRest, hOperands ▸ hStage.operands⟩

/-- A run over sites carries the stage on. -/
theorem visitAll_stage {e : Encoded} {before sites : List Site} {report after : Report}
    (hStage : Stage e before report) (h : (report.visitAll e sites).result = .ok after) :
    Stage e (before ++ sites) after := by
  induction sites generalizing before report with
  | nil =>
      cases h
      rwa [List.append_nil]
  | cons site rest ih =>
      obtain ⟨next, hNext, hRest⟩ := Outcome.result_bind_eq_ok_iff.mp h
      have hEnd := ih (visit_stage hStage hNext) hRest
      rwa [List.append_assoc, List.singleton_append] at hEnd

/-- A run over sites that do not look back adds what they complete. -/
theorem visitAll_of_additive {e : Encoded} {sites : List Site} {report after : Report}
    (hRest : report.operands.AtRest) (hSites : ∀ site ∈ sites, site.looksBack = false)
    (h : (report.visitAll e sites).result = .ok after) :
    after.operands = report.operands.extend (sites.flatMap (Site.completed e)) := by
  induction sites generalizing report with
  | nil =>
      cases h
      rfl
  | cons site rest ih =>
      obtain ⟨hFirst, hOthers⟩ := List.forall_mem_cons.mp hSites
      obtain ⟨next, hNext, hLater⟩ := Outcome.result_bind_eq_ok_iff.mp h
      have hStep : next.operands.AtRest ∧
          next.operands = report.operands.extend (site.completed e) := by
        cases site with
        | effect form i =>
            have hSame := visit_effect hNext
            exact ⟨hSame ▸ hRest, hSame⟩
        | operand form i =>
            rw [visit_of_additive hRest hFirst i] at hNext
            split at hNext
            · next hRoom =>
              cases hNext
              exact ⟨Cursor.atRest_extend hRest hRoom, rfl⟩
            · contradiction
      rw [ih hStep.1 hOthers hLater, hStep.2, Cursor.extend_extend, List.flatMap_cons]

/-- One site keeps a property of all operands that its edits maintain. -/
theorem visit_maintains {e : Encoded} {p : Operand → Prop} {site : Site} {report after : Report}
    (hRest : report.operands.AtRest) (hAll : ∀ op ∈ report.operands.toList, p op)
    (hSite : ∀ form i, site = .operand form i → ∀ edit ∈ form.edits e i, edit.Maintains p)
    (h : (report.visit e site).result = .ok after) : ∀ op ∈ after.operands.toList, p op := by
  cases site with
  | effect form i =>
      rw [visit_effect h]
      exact hAll
  | operand form i =>
      obtain ⟨operands, hApply, rfl⟩ := map_eq_ok_iff.mp h
      exact Cursor.applyAll_maintains hRest hAll (hSite form i rfl) hApply

/-- A run over sites keeps a property of all operands that the edits of each of them
maintain. -/
theorem visitAll_maintains {e : Encoded} {p : Operand → Prop} {before sites : List Site}
    {report after : Report} (hStage : Stage e before report)
    (hAll : ∀ op ∈ report.operands.toList, p op)
    (hSites : ∀ form i, .operand form i ∈ sites → ∀ edit ∈ form.edits e i, edit.Maintains p)
    (h : (report.visitAll e sites).result = .ok after) : ∀ op ∈ after.operands.toList, p op := by
  induction sites generalizing before report with
  | nil =>
      cases h
      exact hAll
  | cons site rest ih =>
      obtain ⟨next, hNext, hRest⟩ := Outcome.result_bind_eq_ok_iff.mp h
      have hNextAll := visit_maintains hStage.atRest hAll
        (fun form i hEq => hSites form i (hEq ▸ List.mem_cons_self)) hNext
      exact ih (visit_stage hStage hNext) hNextAll
        (fun form i hLater => hSites form i (List.mem_cons_of_mem site hLater)) hRest

/-- A run over two lists of sites is the run over the one and then the other. -/
theorem visitAll_append (e : Encoded) (report : Report) (sites more : List Site) :
    report.visitAll e (sites ++ more) = (report.visitAll e sites).bind (visitAll e · more) := by
  induction sites generalizing report with
  | nil => rfl
  | cons site rest ih =>
      rw [List.cons_append, visitAll, visitAll, Outcome.bind_assoc]
      exact Outcome.bind_congr fun next _ => ih next

end Report

/-- Some site annotates, and the sites before it complete nothing. -/
def Stranded (e : Encoded) (before sites : List Site) : Prop :=
  ∃ earlier site later, sites = earlier ++ site :: later ∧ site.annotates e = true ∧
    (before ++ earlier).flatMap (Site.completed e) = []

theorem not_stranded_nil (e : Encoded) (before : List Site) : ¬ Stranded e before [] := by
  rintro ⟨earlier, site, later, hSites, _⟩
  simp at hSites

/-- Either the first site is stranded, or one of the others is. -/
theorem stranded_cons {e : Encoded} {before rest : List Site} {site : Site} :
    Stranded e before (site :: rest) ↔
      (site.annotates e = true ∧ before.flatMap (Site.completed e) = []) ∨
        Stranded e (before ++ [site]) rest := by
  constructor
  · rintro ⟨earlier, other, later, hSites, hAnnotates, hNone⟩
    cases earlier with
    | nil =>
        cases hSites
        rw [List.append_nil] at hNone
        exact .inl ⟨hAnnotates, hNone⟩
    | cons first earlier =>
        cases hSites
        refine .inr ⟨earlier, other, later, rfl, hAnnotates, ?_⟩
        rwa [List.append_assoc, List.singleton_append]
  · rintro (⟨hAnnotates, hNone⟩ | ⟨earlier, other, later, hSites, hAnnotates, hNone⟩)
    · exact ⟨[], site, rest, rfl, hAnnotates, by rwa [List.append_nil]⟩
    · refine ⟨site :: earlier, other, later, by rw [hSites]; rfl, hAnnotates, ?_⟩
      rwa [List.append_assoc, List.singleton_append] at hNone

namespace Report

/-- A site that annotates finds nothing before it. -/
theorem visit_stranded {e : Encoded} {before : List Site} {site : Site} {report : Report}
    (hStage : Stage e before report) (hShifts : site.shifts = true)
    (hAnnotates : site.annotates e = true) (hNone : before.flatMap (Site.completed e) = []) :
    (report.visit e site).result = .error nothingBefore := by
  cases site with
  | effect form i => contradiction
  | operand form i =>
      obtain ⟨_, change, _, hVisit⟩ := visit_of_looksBack (e := e) hStage.atRest
        (OperandForm.looksBack_of_annotates hAnnotates) i
      have hFound : (form.annotates e i && form.shifts) = true := by
        rw [Bool.and_eq_true]
        exact ⟨hAnnotates, hShifts⟩
      have hEmpty : report.operands.length = 0 := by
        rw [hStage.length, hNone]
        rfl
      rw [hVisit, if_pos hFound, if_pos hEmpty]

/-- Any other site is visited while there is room. -/
theorem visit_progress {e : Encoded} {before : List Site} {site : Site} {report : Report}
    (hTable : e.opcode.HasRoom) (hStage : Stage e before report)
    (hSound : report.effects.Sound e.opcode)
    (hRoom : ((before ++ [site]).flatMap (Site.completed e)).length ≤ operandCapacity)
    (hNot : ¬ (site.annotates e = true ∧ before.flatMap (Site.completed e) = [])) :
    ∃ after, (report.visit e site).result = .ok after ∧ after.effects.Sound e.opcode := by
  cases site with
  | effect form i =>
      obtain ⟨fx, hApply, hFx⟩ := Effects.apply_sound hTable hSound i form
      refine ⟨{ report with effects := fx }, ?_, hFx⟩
      show (report.effects.apply e i form).map _ = _
      rw [hApply]
      rfl
  | operand form i =>
      cases hForm : form.looksBack with
      | false =>
          have hFits : report.operands.length +
              (Site.completed e (.operand form i)).length ≤ operandCapacity := by
            rw [hStage.length]
            simpa using hRoom
          refine ⟨{ report with
            operands := report.operands.extend (Site.completed e (.operand form i)) }, ?_, hSound⟩
          rw [visit_of_additive hStage.atRest hForm i, if_pos hFits]
      | true =>
          obtain ⟨_, change, _, hVisit⟩ := visit_of_looksBack (e := e) hStage.atRest hForm i
          rw [hVisit]
          split
          · next hFound =>
            have hSome : report.operands.length ≠ 0 := by
              intro hEmpty
              rw [hStage.length] at hEmpty
              exact hNot ⟨(Bool.and_eq_true _ _ ▸ hFound).1, List.eq_nil_of_length_eq_zero hEmpty⟩
            rw [if_neg hSome]
            exact ⟨_, rfl, hSound⟩
          · exact ⟨report, rfl, hSound⟩

/-- With room for all operands, a run is stranded and ends in the look-back fault, or
it is not and gives a report. -/
theorem visitAll_progress {e : Encoded} {before sites : List Site} {report : Report}
    (hTable : e.opcode.HasRoom) (hStage : Stage e before report)
    (hSound : report.effects.Sound e.opcode) (hShifts : ∀ site ∈ sites, site.shifts = true)
    (hRoom : ((before ++ sites).flatMap (Site.completed e)).length ≤ operandCapacity) :
    (Stranded e before sites ∧ (report.visitAll e sites).result = .error nothingBefore) ∨
      (¬ Stranded e before sites ∧ ∃ after,
        (report.visitAll e sites).result = .ok after ∧ after.effects.Sound e.opcode) := by
  -- The first site decides, or else the run goes on from a later stage.
  induction sites generalizing before report with
  | nil => exact .inr ⟨not_stranded_nil e before, report, rfl, hSound⟩
  | cons site rest ih =>
      obtain ⟨hShiftsFirst, hShiftsRest⟩ := List.forall_mem_cons.mp hShifts
      by_cases hFirst : site.annotates e = true ∧ before.flatMap (Site.completed e) = []
      · have hVisit := visit_stranded hStage hShiftsFirst hFirst.1 hFirst.2
        exact .inl ⟨stranded_cons.mpr (.inl hFirst), Outcome.result_bind_error hVisit⟩
      · have hSplit : before ++ site :: rest = (before ++ [site]) ++ rest := by simp
        have hRoomFirst : ((before ++ [site]).flatMap (Site.completed e)).length ≤
            operandCapacity := by
          rw [hSplit, List.flatMap_append, List.length_append] at hRoom
          omega
        obtain ⟨next, hVisit, hSoundNext⟩ :=
          visit_progress hTable hStage hSound hRoomFirst hFirst
        rw [visitAll, Outcome.result_bind_ok hVisit, stranded_cons, or_iff_right hFirst]
        exact ih (visit_stage hStage hVisit) hSoundNext hShiftsRest (hSplit ▸ hRoom)

end Report

end OperandReport.Arm
