import OperandReport.Power.Assembly
import OperandReport.Proofs.Agreement

/-!
# What a PowerPC site reads

A site reads the fields of its window, the template, the address and the mode.  If two
instructions agree on all of this, a visit of the site ends the same way on every report.
Filling reads a little more: a template may take the condition of its branch from two
fields of its own, before any site is visited.

## Main results

* `OperandForm.edits_congr`, `ConditionForm.apply_congr`: a form reads its window.
* `Report.visit_congr`, `Report.fill_congr`: a visit, and the filling of a report.
-/

namespace OperandReport.Power

/-- The two instructions differ at most in their fields. -/
structure SameContext (e e' : Encoded) : Prop where
  opcode : e.opcode = e'.opcode
  address : e.address = e'.address
  mode : e.mode = e'.mode

theorem sameContext_fields (e : Encoded) (fields : List Field) :
    SameContext e { e with fields } :=
  ⟨rfl, rfl, rfl⟩

/-- What is read off field `i` is the same for both instructions. -/
structure SameAt (e e' : Encoded) (i : Nat) : Prop where
  field : e.field i = e'.field i
  isRegister : e.isRegister i = e'.isRegister i
  isImmediate : e.isImmediate i = e'.isImmediate i
  registerId : e.registerId i = e'.registerId i
  register : registerAt e i = registerAt e' i
  immediate : e.immediate i = e'.immediate i

theorem sameAt_of_field {e e' : Encoded} {i : Nat} (h : e.field i = e'.field i) :
    SameAt e e' i where
  field := h
  isRegister := Encoded.isRegister_congr h
  isImmediate := Encoded.isImmediate_congr h
  registerId := Encoded.registerId_congr h
  register := by rw [registerAt, Encoded.registerId_congr h, registerAt]
  immediate := Encoded.immediate_congr h

/-! ## Pieces -/

section Pieces

variable {e e' : Encoded} {i : Nat}

theorem registerEdits_congr (hContext : SameContext e e') (h : SameAt e e' i) :
    registerEdits e i = registerEdits e' i := by
  simp only [registerEdits, accessAt, h.register, hContext.opcode]

theorem plainEdits_congr (hContext : SameContext e e') (h : SameAt e e' i) :
    plainEdits e i = plainEdits e' i := by
  unfold plainEdits
  rw [h.field, registerEdits_congr hContext h]

theorem baseAt_congr (h : SameAt e e' i) : baseAt e i = baseAt e' i := by
  simp only [baseAt, h.register]

theorem memoryOperand_congr (hContext : SameContext e e') (m : Memory) :
    memoryOperand e m = memoryOperand e' m := by
  simp only [memoryOperand, hContext.opcode]

theorem baseMissing_congr (hContext : SameContext e e') : baseMissing e = baseMissing e' := by
  simp only [baseMissing, hContext.opcode]

theorem displacedEdits_congr (hContext : SameContext e e') (hNext : SameAt e e' (i + 1))
    (displacement : Imm) : displacedEdits e i displacement = displacedEdits e' i displacement := by
  simp only [displacedEdits, hNext.isRegister, baseAt_congr hNext, memoryOperand_congr hContext,
    baseMissing_congr hContext]

theorem branchEdits_congr (hContext : SameContext e e') (h : SameAt e e' i) :
    branchEdits e i = branchEdits e' i := by
  simp only [branchEdits, h.isImmediate, h.immediate, hContext.opcode, hContext.mode,
    hContext.address, plainEdits_congr hContext h]

end Pieces

/-! ## Forms -/

/-- An operand form contributes the same where its window is the same. -/
theorem OperandForm.edits_congr {e e' : Encoded} {i : Nat} {form : OperandForm}
    (hContext : SameContext e e') (hWindow : e.AgreeOn e' i form.width) :
    form.edits e i = form.edits e' i := by
  have h : 0 < form.width → SameAt e e' i := fun hk => sameAt_of_field (hWindow.field hk)
  have hNext : 1 < form.width → SameAt e e' (i + 1) := fun hk =>
    sameAt_of_field (hWindow.field hk)
  cases form with
  -- one field
  | plain => exact plainEdits_congr hContext (h Nat.one_pos)
  | unsigned | signed | absoluteBranch => simp only [edits, (h Nat.one_pos).immediate]
  | zero => simp only [edits, (h Nat.one_pos).immediate, hContext.opcode]
  | branch => exact branchEdits_congr hContext (h Nat.one_pos)
  | conditionField => exact registerEdits_congr hContext (h Nat.one_pos)
  -- two fields
  | annotatedCall => exact branchEdits_congr hContext (h Nat.two_pos)
  | indexed =>
      simp only [edits, (h Nat.two_pos).isRegister, baseAt_congr (h Nat.two_pos),
        (hNext Nat.one_lt_two).register, memoryOperand_congr hContext,
        baseMissing_congr hContext, plainEdits_congr hContext (h Nat.two_pos),
        plainEdits_congr hContext (hNext Nat.one_lt_two)]
  | displaced | displacedExactly | displacedFar =>
      simp only [edits, (h Nat.two_pos).immediate,
        displacedEdits_congr hContext (hNext Nat.one_lt_two)]
  | displacedFromPc =>
      simp only [edits, (h Nat.two_pos).immediate, memoryOperand_congr hContext]
  | predicateRegister =>
      simp only [edits, (hNext Nat.one_lt_two).registerId,
        registerEdits_congr hContext (hNext Nat.one_lt_two)]

/-- A condition form does the same where its window is the same. -/
theorem ConditionForm.apply_congr {e e' : Encoded} {i : Nat} {form : ConditionForm}
    (hWindow : e.AgreeOn e' i form.width) (condition : Option Condition) :
    form.apply e i condition = form.apply e' i condition := by
  have h : 0 < form.width → SameAt e e' i := fun hk => sameAt_of_field (hWindow.field hk)
  have hNext : 1 < form.width → SameAt e e' (i + 1) := fun hk =>
    sameAt_of_field (hWindow.field hk)
  cases form with
  | hint => simp only [apply, (h Nat.one_pos).immediate]
  | predicateHint => simp only [apply, (h Nat.two_pos).immediate]
  | predicate =>
      simp only [apply, (h Nat.two_pos).immediate, (hNext Nat.one_lt_two).register]

/-- The two instructions agree on the field of a branch condition. -/
def ConditionSource.Agrees (e e' : Encoded) : ConditionSource → Prop
  | constant _ => True
  | slot i => e.field i = e'.field i

theorem ConditionSource.read_congr {e e' : Encoded} {source : ConditionSource}
    (h : source.Agrees e e') : source.read e = source.read e' := by
  cases source with
  | constant n => rfl
  | slot i =>
      have hAt := sameAt_of_field h
      simp only [read, hAt.field, hAt.register]

/-- Where the fields of the branch condition come from, in a template that spells it
out. -/
def Template.conditionSources (t : Template) : List ConditionSource :=
  t.condition.toList.flatMap fun (bo, bi) => [bo, bi]

/-- The condition that a template spells out is the same where its fields are. -/
theorem Condition.ofTemplate_congr {e e' : Encoded} (hContext : SameContext e e')
    (hSources : ∀ source ∈ e.opcode.conditionSources, source.Agrees e e') :
    ofTemplate e = ofTemplate e' := by
  unfold ofTemplate
  rw [← hContext.opcode]
  split
  · rfl
  · next bo bi hSome =>
    have hBoth : e.opcode.conditionSources = [bo, bi] := by
      rw [Template.conditionSources, hSome]
      rfl
    rw [hBoth] at hSources
    rw [ConditionSource.read_congr (hSources bo (by simp)),
      ConditionSource.read_congr (hSources bi (by simp))]

/-! ## Sites -/

/-- The two instructions agree on the window of the site. -/
abbrev Site.Agrees (e e' : Encoded) (site : Site) : Prop := e.AgreeOn e' site.slot site.width

namespace Report

variable {e e' : Encoded}

/-- A visit of a site ends the same way, on every report. -/
theorem visit_congr {site : Site} (hContext : SameContext e e') (hAgrees : site.Agrees e e')
    (report : Report) : report.visit e site = report.visit e' site := by
  cases site with
  | condition form i =>
      have hWindow : e.AgreeOn e' i form.width := hAgrees
      rw [visit, ConditionForm.apply_congr hWindow, visit]
  | operand form i =>
      have hWindow : e.AgreeOn e' i form.width := hAgrees
      rw [visit, OperandForm.edits_congr hContext hWindow, visit]

/-- If visits end the same way, so does a run over the sites. -/
theorem visitAll_eq_of_visit {sites : List Site}
    (h : ∀ site ∈ sites, ∀ report : Report, report.visit e site = report.visit e' site)
    (report : Report) : report.visitAll e sites = report.visitAll e' sites := by
  induction sites generalizing report with
  | nil => rfl
  | cons site rest ih =>
      obtain ⟨hFirst, hRest⟩ := List.forall_mem_cons.mp h
      have hLater : (visitAll e · rest) = (visitAll e' · rest) := funext (ih hRest)
      rw [visitAll, hFirst, hLater, visitAll]

/-- And so does filling, if the condition of the template is the same. -/
theorem fill_eq_of_visit (hOpcode : e.opcode = e'.opcode)
    (hCondition : Condition.ofTemplate e = Condition.ofTemplate e')
    (h : ∀ site ∈ e.opcode.sites, ∀ report : Report,
      report.visit e site = report.visit e' site) : fill e = fill e' := by
  have hInitial : initial e = initial e' := by
    rw [initial, hCondition, hOpcode, initial]
  have hVisit : ∀ report : Report,
      report.visitAll e e.opcode.sites = report.visitAll e' e'.opcode.sites := by
    intro report
    rw [visitAll_eq_of_visit h, hOpcode]
  have hFinish : ∀ report : Report, report.finish e = report.finish e' := by
    intro report
    rw [finish, hOpcode, finish]
  simp only [fill, hInitial, hVisit, hFinish]

/-- Filling ends the same way, if the fields of the branch condition are the same too. -/
theorem fill_congr (hContext : SameContext e e')
    (hSources : ∀ source ∈ e.opcode.conditionSources, source.Agrees e e')
    (hAgrees : ∀ site ∈ e.opcode.sites, site.Agrees e e') : fill e = fill e' :=
  fill_eq_of_visit hContext.opcode (Condition.ofTemplate_congr hContext hSources)
    fun site hSite report => visit_congr hContext (hAgrees site hSite) report

end Report

end OperandReport.Power
