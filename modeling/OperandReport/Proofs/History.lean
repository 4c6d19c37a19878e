import OperandReport.Proofs.Arm.Visit
import OperandReport.Proofs.Power.Fill

/-!
# Operand history

Completed operands are history: a visit adds new ones behind them and leaves them as they
are.  On ARM the forms that look back are the exception.  They annotate the operand that is
being worked on, which is the open one, or else the newest completed one; and they change
nothing of it but its shift, its vector index and its lane.

Nothing is assumed of the report here.  It may hold any operands, with one of them open or
not, and need not fit the instruction.

## Main results

* `Cursor.applyAll_appends`: what additive edits add to any cursor.
* `Cursor.amend_cases`: what an amendment changes.
* `visit_appends`: both architectures together.
-/

namespace OperandReport

namespace Cursor

variable {α : Type} {capacity : Nat} {c d : Cursor α capacity}

/-- The cursor became another one that is as open and has further operands completed. -/
structure Appends (c : Cursor α capacity) (xs : List α) (d : Cursor α capacity) : Prop where
  isOpen : d.isOpen = c.isOpen
  toList : d.toList = c.toList ++ xs

theorem appends_refl (c : Cursor α capacity) : c.Appends [] c where
  isOpen := rfl
  toList := (List.append_nil c.toList).symm

theorem Appends.trans {xs ys : List α} {b : Cursor α capacity} (h : b.Appends xs c)
    (hNext : c.Appends ys d) : b.Appends (xs ++ ys) d where
  isOpen := hNext.isOpen.trans h.isOpen
  toList := by rw [hNext.toList, h.toList, List.append_assoc]

theorem Appends.length {xs : List α} (h : c.Appends xs d) :
    d.length = c.length + xs.length := by
  rw [← length_toList, h.toList, List.length_append, length_toList]

/-- Only a closed cursor takes an operand. -/
theorem push_appends {a : α} (h : c.push a = .ok d) : c.isOpen = false ∧ c.Appends [a] d := by
  have hList := toList_of_push h
  unfold push at h
  split at h
  · contradiction
  · next hOpen =>
    split at h
    · cases h
      exact ⟨by simpa using hOpen, rfl, hList⟩
    · contradiction

/-- A change of the open operand touches no completed one. -/
theorem modifyOpen_appends {f : α → Except Fault α} (h : c.modifyOpen f = .ok d) :
    c.Appends [] d := by
  unfold modifyOpen at h
  split at h
  · contradiction
  · next a hPending =>
    obtain ⟨b, _, rfl⟩ := map_eq_ok_iff.mp h
    exact ⟨by simp [isOpen, hPending], by simp [toList]⟩

/-- An additive edit completes nothing while an operand is open, and what it says
otherwise. -/
theorem apply_appends {edit : Edit α} (hAdditive : edit.isAdditive = true)
    (h : (c.apply edit).result = .ok d) :
    c.Appends (if c.isOpen then [] else edit.completed) d := by
  cases edit with
  | note text =>
      cases h
      simpa [Edit.completed] using appends_refl c
  | report a =>
      obtain ⟨hClosed, hAppends⟩ := push_appends h
      simpa [Edit.completed, hClosed] using hAppends
  | bracket a =>
      by_cases hOpen : c.isOpen = true
      · simp [apply, start, hOpen, Except.bind] at h
      · change (c.start a).bind close = .ok d at h
        rw [start_bind_close (by simpa using hOpen)] at h
        simpa [Edit.completed, hOpen] using (push_appends h).2
  | amend change => contradiction
  | place a merge =>
      by_cases hOpen : c.isOpen = true
      · simp only [apply, hOpen, if_true, Outcome.result_ofResult] at h
        simpa [hOpen] using modifyOpen_appends h
      · simp only [apply, hOpen, Outcome.result_ofResult] at h
        simpa [Edit.completed, hOpen] using (push_appends h).2

/-- So do additive edits one after another. -/
theorem applyAll_appends {edits : List (Edit α)}
    (hAdditive : ∀ edit ∈ edits, edit.isAdditive = true)
    (h : (c.applyAll edits).result = .ok d) :
    c.Appends (if c.isOpen then [] else Edit.completedBy edits) d := by
  induction edits generalizing c with
  | nil =>
      cases h
      simpa using appends_refl _
  | cons edit rest ih =>
      obtain ⟨hFirst, hOthers⟩ := List.forall_mem_cons.mp hAdditive
      obtain ⟨next, hNext, hRest⟩ := Outcome.result_bind_eq_ok_iff.mp h
      have hStep := apply_appends hFirst hNext
      have hLater := ih hOthers hRest
      rw [hStep.isOpen] at hLater
      have hBoth := hStep.trans hLater
      by_cases hOpen : c.isOpen = true
      · simpa [hOpen] using hBoth
      · simpa [hOpen] using hBoth

/-- An amendment changes the open operand and no completed one, or it changes the newest
completed one and nothing is open. -/
theorem amend_cases {f : α → α} (h : c.amend f = .ok d) :
    d.isOpen = c.isOpen ∧
      ((c.isOpen = true ∧ d.toList = c.toList) ∨
        ∃ older a, c.toList = older ++ [a] ∧ d.toList = older ++ [f a] ∧ c.isOpen = false) := by
  unfold amend at h
  split at h
  · next _ a hPending =>
    cases h
    have hOpen : c.isOpen = true := by simp [isOpen, hPending]
    exact ⟨hOpen.symm, .inl ⟨hOpen, rfl⟩⟩
  · next a older hPending hRecent =>
    cases h
    have hClosed : c.isOpen = false := by simp [isOpen, hPending]
    refine ⟨rfl, .inr ⟨older.reverse, a, ?_, ?_, hClosed⟩⟩
    · simp [toList, hRecent]
    · simp [toList]
  · contradiction

end Cursor

/-! ## ARM -/

namespace Arm

/-- Two operands that differ in later parts only. -/
theorem Operand.eq_of_bare {op other : Operand} (h : other.bare = op.bare) :
    ∃ shift vectorIndex lane, other = { op with shift, vectorIndex, lane } := by
  cases op
  cases other
  simp only [bare, Operand.mk.injEq] at h
  obtain ⟨rfl, rfl, _, _, _, rfl⟩ := h
  exact ⟨_, _, _, rfl⟩

/-- The lists are the same but for later parts of the last operand: its shift, its vector
index and its lane. -/
def ChangesLater (before after : List Operand) : Prop :=
  ∃ older op shift vectorIndex lane, before = older ++ [op] ∧
    after = older ++ [{ op with shift, vectorIndex, lane }]

theorem ChangesLater.length_eq {before after : List Operand} (h : ChangesLater before after) :
    after.length = before.length := by
  obtain ⟨older, op, _, _, _, rfl, rfl⟩ := h
  rw [List.length_append, List.length_append]
  rfl

namespace Report

variable {e : Encoded} {report after : Report}

/-- A site that does not look back appends what it completes, and nothing while an operand
is open. -/
theorem visit_site_appends {site : Site} (hSite : site.looksBack = false)
    (h : (report.visit e site).result = .ok after) :
    report.operands.Appends (if report.operands.isOpen then [] else site.completed e)
      after.operands := by
  cases site with
  | effect form i =>
      rw [visit_effect h]
      simpa [Site.completed] using Cursor.appends_refl report.operands
  | operand form i =>
      obtain ⟨operands, hApply, rfl⟩ := map_eq_ok_iff.mp h
      exact Cursor.applyAll_appends (form.contributes e i hSite).additive hApply

private theorem applyAll_cases_of_annotates {c d : Cursor Operand operandCapacity}
    {found : Bool} {edits : List (Edit Operand)} (hEdits : OperandForm.Annotates found edits)
    (h : (c.applyAll edits).result = .ok d) :
    d.isOpen = c.isOpen ∧
      (d.toList = c.toList ∨
        c.isOpen = false ∧ ChangesLater c.toList d.toList) := by
  cases hEdits with
  | nothing =>
      cases h
      exact ⟨rfl, .inl rfl⟩
  | @change change hBare =>
      obtain ⟨next, hAmend, hNext⟩ := Outcome.result_bind_eq_ok_iff.mp h
      cases hNext
      obtain ⟨hOpen, ⟨_, hSame⟩ | ⟨older, op, hBefore, hAfter, hClosed⟩⟩ :=
        Cursor.amend_cases hAmend
      · exact ⟨hOpen, .inl hSame⟩
      · obtain ⟨shift, vectorIndex, lane, hChange⟩ := Operand.eq_of_bare (hBare op)
        rw [hChange] at hAfter
        exact ⟨hOpen, .inr ⟨hClosed, older, op, shift, vectorIndex, lane, hBefore, hAfter⟩⟩

/-- A site that looks back completes nothing.  It leaves the completed operands alone, or
nothing is open and later parts of the newest one change. -/
theorem visit_looksBack_cases {site : Site} (hSite : site.looksBack = true)
    (h : (report.visit e site).result = .ok after) :
    after.operands.isOpen = report.operands.isOpen ∧
      (after.operands.toList = report.operands.toList ∨
        report.operands.isOpen = false ∧
          ChangesLater report.operands.toList after.operands.toList) := by
  cases site with
  | effect form i => contradiction
  | operand form i =>
      obtain ⟨operands, hApply, rfl⟩ := map_eq_ok_iff.mp h
      exact applyAll_cases_of_annotates (form.edits_of_looksBack e i hSite) hApply

end Report

end Arm

/-! ## PowerPC -/

namespace Power.Report

/-- A site appends what it completes, and nothing while an operand is open. -/
theorem visit_site_appends {e : Encoded} {report after : Report} {site : Site}
    (h : (report.visit e site).result = .ok after) :
    report.operands.Appends (if report.operands.isOpen then [] else site.completed e)
      after.operands := by
  cases site with
  | condition form i =>
      rw [visit_condition_operands h]
      simpa [Site.completed] using Cursor.appends_refl report.operands
  | operand form i =>
      obtain ⟨operands, hApply, rfl⟩ := map_eq_ok_iff.mp h
      exact Cursor.applyAll_appends (form.contributes e i).additive hApply

end Power.Report

/-! ## Both -/

/-- A visit that gives a report opens and closes nothing and keeps the completed operands as
a prefix.  On ARM a form that looks back may, while nothing is open, change the shift, the
vector index and the lane of the newest operand instead, and then it appends none.  While an
operand is open, no completed one changes and none is appended.  No form but the register
list appends more than four. -/
theorem visit_appends :
    (∀ (e : Arm.Encoded) (report after : Arm.Report) (site : Arm.Site),
      (report.visit e site).result = .ok after →
      after.operands.isOpen = report.operands.isOpen ∧
      (report.operands.isOpen = true → after.operands.toList = report.operands.toList) ∧
      (site.looksBack = false → report.operands.toList <+: after.operands.toList) ∧
      (site.looksBack = true →
        after.operands.toList = report.operands.toList ∨
        report.operands.isOpen = false ∧
          Arm.ChangesLater report.operands.toList after.operands.toList) ∧
      ((∀ i, site ≠ .operand .registerList i) →
        after.operands.length ≤ report.operands.length + 4)) ∧
    ∀ (e : Power.Encoded) (report after : Power.Report) (site : Power.Site),
      (report.visit e site).result = .ok after →
      after.operands.isOpen = report.operands.isOpen ∧
      report.operands.toList <+: after.operands.toList := by
  constructor
  · intro e report after site h
    cases hSite : site.looksBack with
    | false =>
        have hAppends := Arm.Report.visit_site_appends hSite h
        refine ⟨hAppends.isOpen, ?_, ?_, nofun, ?_⟩
        · intro hOpen
          simpa [hOpen] using hAppends.toList
        · intro _
          exact ⟨_, hAppends.toList.symm⟩
        · intro hList
          rw [hAppends.length]
          refine Nat.add_le_add_left ?_ _
          split
          · exact Nat.zero_le 4
          · exact Arm.Site.length_completed_le_four e hList
    | true =>
        obtain ⟨hOpen, hCases⟩ := Arm.Report.visit_looksBack_cases hSite h
        refine ⟨hOpen, ?_, nofun, fun _ => hCases, ?_⟩
        · intro hOpenBefore
          rcases hCases with hSame | ⟨hClosed, _⟩
          · exact hSame
          · rw [hOpenBefore] at hClosed
            contradiction
        · intro _
          have hLength : after.operands.length = report.operands.length := by
            rw [← Cursor.length_toList, ← Cursor.length_toList]
            rcases hCases with hSame | ⟨_, hChanges⟩
            · rw [hSame]
            · exact hChanges.length_eq
          omega
  · intro e report after site h
    have hAppends := Power.Report.visit_site_appends h
    exact ⟨hAppends.isOpen, _, hAppends.toList.symm⟩

/-- A halfword packing that shifts its second source right by four. -/
def Arm.packShifted : Arm.Encoded where
  opcode := (Arm.templates.find? (·.name == "PKHTB")).get (by decide +kernel)
  fields := [.register 32, .register 33, .register 34, .immediate 4, .immediate 14, .vacant]

/-- The report of the packing before the shift is read. -/
def Arm.packRegisters : Arm.Report where
  operands := { recent := [.ofRegister (.core 2) .reads, .ofRegister (.core 1) .reads,
    .ofRegister (.core 0) .writes] }

/-- An unconditional branch. -/
def Power.branchForward : Power.Encoded where
  opcode := (Power.templates.find? (·.name == "B")).get (by decide +kernel)
  fields := [.immediate 64]

/-- The shift of a packing goes to the operand before it and to no other one.  A branch
target goes behind the operands that are there. -/
theorem visit_appends_packShifted :
    (∃ after, (Arm.packRegisters.visit Arm.packShifted (.operand .packRight 3)).result = .ok after ∧
      after.operands.isOpen = false ∧ after.operands.length ≤ 7 ∧
      after.operands.toList = [.ofRegister (.core 0) .writes, .ofRegister (.core 1) .reads,
        { Arm.Operand.ofRegister (.core 2) .reads with shift := ⟨.asr, 4⟩ }]) ∧
    ∃ after, ((default : Power.Report).visit Power.branchForward (.operand .branch 0)).result =
        .ok after ∧
      after.operands.isOpen = false := by
  obtain ⟨hArm, hPower⟩ := visit_appends
  constructor
  · have hVisit : ∃ after,
        (Arm.packRegisters.visit Arm.packShifted (.operand .packRight 3)).result = .ok after ∧
          after.operands.toList = [.ofRegister (.core 0) .writes, .ofRegister (.core 1) .reads,
            { Arm.Operand.ofRegister (.core 2) .reads with shift := ⟨.asr, 4⟩ }] := ⟨_, rfl, rfl⟩
    obtain ⟨after, hAfter, hList⟩ := hVisit
    obtain ⟨hOpen, _, _, _, hLength⟩ := hArm _ _ _ _ hAfter
    exact ⟨after, hAfter, hOpen, hLength fun i => by simp, hList⟩
  · obtain ⟨after, hAfter⟩ : ∃ after,
        ((default : Power.Report).visit Power.branchForward (.operand .branch 0)).result =
          .ok after := ⟨_, rfl⟩
    exact ⟨after, hAfter, (hPower _ _ _ _ hAfter).1⟩

end OperandReport
