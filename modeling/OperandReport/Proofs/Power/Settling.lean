import OperandReport.Proofs.Power.Implicit
import OperandReport.Proofs.Power.Steps

/-!
# When a branch counts down

A branch condition comes from the template, a predicate site replaces it, and the hint
sites change its prediction.  Settling looks at the condition once, when all sites have
been visited.  So the count register is among the implicit registers of a report just when
the condition that the report shows counts down, or the template lists the register
anyway; no site can leave it behind for a condition that is replaced later.

This does not depend on which sites a template has.  `implicitOf_of_visits` is about any
sites at any fields, in any order and as often as one likes, between the first step and the
last one.  Of these the last predicate alone decides whether the branch counts down.

## Main results

* `isSome_conditionAfter`: when there is a condition at all.
* `countsDown_conditionAfter`: which sites decide whether it counts down.
* `implicitOf_of_visits`: the effects after visits of any sites.
* `take_fill_settled`: the effects and the condition of a filled instruction.
-/

namespace OperandReport.Power

open Footprint (mention)

/-! ## Sites -/

namespace Site

/-- The site replaces the condition. -/
def isPredicate : Site → Bool
  | condition .predicate _ => true
  | _ => false

/-- Whether the branch counts down after the site, by whether it did before. -/
def countsAfter (e : Encoded) (counts : Bool) : Site → Bool
  | condition .predicate i =>
    (Condition.ofPredicate (e.immediate i).toNat (registerAt e (i + 1))).decrementsCount
  | _ => counts

end Site

/-- The condition that the template spells out is there just if the template has one. -/
theorem Condition.isSome_ofTemplate {e : Encoded} {condition : Option Condition}
    (h : (ofTemplate e).result = .ok condition) :
    condition.isSome = e.opcode.condition.isSome := by
  unfold ofTemplate at h
  split at h
  · next hNone =>
    cases h
    rw [hNone]
    rfl
  · next bo bi hSome =>
    obtain ⟨_, _, h⟩ := Outcome.result_bind_eq_ok_iff.mp h
    obtain ⟨_, _, h⟩ := Outcome.result_bind_eq_ok_iff.mp h
    cases h
    rw [hSome]
    rfl

namespace ConditionForm

variable {e : Encoded} {i : Nat} {condition : Option Condition}

/-- A predicate gives a condition, and a hint needs one. -/
theorem isSome_apply (form : ConditionForm) :
    (form.apply e i condition).isSome =
      (condition.isSome || (Site.condition form i).isPredicate) := by
  cases form with
  | predicate => simp [apply, Site.isPredicate]
  | predicateHint =>
      dsimp only [apply, Site.isPredicate]
      split <;> simp
  | hint => simp [apply, Site.isPredicate]

/-- A hint leaves alone what is asked of the count register. -/
theorem countsDown_apply (form : ConditionForm) :
    countsDown (form.apply e i condition) =
      (Site.condition form i).countsAfter e (countsDown condition) := by
  cases form with
  | predicate => rfl
  | predicateHint =>
      dsimp only [apply, Site.countsAfter]
      split
      · rfl
      · cases condition <;> rfl
  | hint => cases condition <;> rfl

end ConditionForm

/-- After sites there is a condition if there was one before, or one of them is a
predicate. -/
theorem isSome_conditionAfter (e : Encoded) (condition : Option Condition) (sites : List Site) :
    (conditionAfter e condition sites).isSome =
      (condition.isSome || sites.any Site.isPredicate) := by
  induction sites generalizing condition with
  | nil => exact (Bool.or_false _).symm
  | cons site rest ih =>
      cases site with
      | condition form i =>
          rw [conditionAfter, ih, form.isSome_apply, List.any_cons, Bool.or_assoc]
      | operand form i => exact ih condition

/-- The last predicate decides whether the branch counts down, or else the condition from
before; no hint does. -/
theorem countsDown_conditionAfter (e : Encoded) (condition : Option Condition)
    (sites : List Site) :
    countsDown (conditionAfter e condition sites) =
      sites.foldl (Site.countsAfter e) (countsDown condition) := by
  induction sites generalizing condition with
  | nil => rfl
  | cons site rest ih =>
      cases site with
      | condition form i => rw [conditionAfter, ih, form.countsDown_apply, List.foldl_cons]
      | operand form i => exact ih condition

/-! ## Lists of the table -/

/-- No template lists the jump group. -/
theorem jump_not_mem_groups {t : Template} (ht : t ∈ templates) : .jump ∉ t.groups := by
  have hAll : ∀ t ∈ templates, .jump ∉ t.groups := by decide +kernel
  exact hAll t ht

/-- The first condition field counts as recorded just if the template lists it: the count
register is none, and no operand is looked at. -/
theorem Effects.ImplicitOf.recordsResult_iff {t : Template} {condition : Option Condition}
    {fx : Effects} (hTidy : t.Tidy) (h : fx.ImplicitOf t condition) :
    fx.recordsResult = true ↔ .conditionField 0 ∈ t.writes := by
  have hItems : ∀ r : Register, r ∈ fx.writes.items ↔
      r ∈ t.writes ∨ countsDown condition = true ∧ r = .ctr := fun r => by
    rw [h.writes]
    split
    · next hCounts => simp [Footprint.mem_mention, hCounts]
    · next hNot => simp [hNot]
  have hNone : (default : Register) ≠ .ctr := by decide
  have hField : Register.conditionField 0 ≠ .ctr := by decide
  have hNoTerminator : default ∉ fx.writes.items := by
    rw [hItems, not_or]
    exact ⟨hTidy.writes.2, fun hEq => hNone hEq.2⟩
  rw [h.recordsResult, writesAny_eq_any hNoTerminator, List.any_eq_true]
  simp only [List.mem_singleton, decide_eq_true_eq, exists_eq_right, hItems]
  exact or_iff_left fun hEq => hField hEq.2

/-! ## Visits of any sites -/

/-- The instruction carries a report whose effects are still those of the template, and
which has the condition. -/
def Unsettled (e : Encoded) (condition : Option Condition) (insn : Instruction) : Prop :=
  ∃ report : Report, insn = { e with report := some report } ∧
    Effects.ofTemplate e.opcode = .ok report.effects ∧ report.condition = condition

section Visits

variable {e : Encoded} {condition : Option Condition} {insn after : Instruction}

/-- The first step starts from the condition and the effects of the template. -/
theorem unsettled_of_initial (hCarries : ∃ report : Report, insn = { e with report := some report })
    (h : (insn.take .initial).result = .ok after) :
    ∃ seed, (Condition.ofTemplate e).result = .ok seed ∧ Unsettled e seed after := by
  obtain ⟨_, rfl⟩ := hCarries
  obtain ⟨report, hInitial, rfl⟩ := map_eq_ok_iff.mp h
  obtain ⟨seed, hSeed, hEffects⟩ := Outcome.result_bind_eq_ok_iff.mp hInitial
  obtain ⟨effects, hFresh, rfl⟩ := map_eq_ok_iff.mp hEffects
  exact ⟨seed, hSeed, _, rfl, hFresh, rfl⟩

/-- A visit changes the condition as its site does, and no effect. -/
theorem Unsettled.visit {site : Site} (hUnsettled : Unsettled e condition insn)
    (h : (insn.take (.visit site)).result = .ok after) :
    Unsettled e (conditionAfter e condition [site]) after := by
  obtain ⟨report, rfl, hEffects, rfl⟩ := hUnsettled
  obtain ⟨next, hVisit, rfl⟩ := map_eq_ok_iff.mp h
  cases site with
  | condition form i =>
      cases hVisit
      exact ⟨_, rfl, hEffects, rfl⟩
  | operand form i =>
      obtain ⟨operands, _, rfl⟩ := map_eq_ok_iff.mp hVisit
      exact ⟨_, rfl, hEffects, rfl⟩

/-- The last step settles the effects on the condition that is there by then. -/
theorem Unsettled.finish (hTidy : e.opcode.Tidy) (hUnsettled : Unsettled e condition insn)
    (h : (insn.take .finish).result = .ok after) :
    ∃ report : Report, after = { e with report := some report } ∧
      report.effects.ImplicitOf e.opcode report.condition ∧ report.condition = condition := by
  obtain ⟨report, rfl, hEffects, rfl⟩ := hUnsettled
  obtain ⟨next, hFinish, rfl⟩ := map_eq_ok_iff.mp h
  change report.finish e = .ok next at hFinish
  unfold Report.finish at hFinish
  split at hFinish
  · contradiction
  · obtain ⟨effects, hSettle, rfl⟩ := map_eq_ok_iff.mp hFinish
    exact ⟨_, rfl, Effects.settle_implicit hTidy hEffects hSettle, rfl⟩

/-- After visits of any sites the last step settles on the condition that they leave. -/
theorem Unsettled.finish_of_visits {sites : List Site} (hTidy : e.opcode.Tidy)
    (hUnsettled : Unsettled e condition insn)
    (h : (insn.takeAll (sites.map .visit ++ [.finish])).result = .ok after) :
    ∃ report : Report, after = { e with report := some report } ∧
      report.effects.ImplicitOf e.opcode report.condition ∧
      report.condition = conditionAfter e condition sites := by
  induction sites generalizing condition insn with
  | nil =>
      obtain ⟨next, hFinish, hEnd⟩ := Outcome.result_bind_eq_ok_iff.mp h
      cases hEnd
      exact hUnsettled.finish hTidy hFinish
  | cons site rest ih =>
      obtain ⟨next, hVisit, hRest⟩ := Outcome.result_bind_eq_ok_iff.mp h
      obtain ⟨report, hAfter, hImplicit, hCondition⟩ := ih (hUnsettled.visit hVisit) hRest
      refine ⟨report, hAfter, hImplicit, hCondition.trans ?_⟩
      cases site <;> rfl

/-- Visits of any sites, between the first step and the last one, leave the effects that
settling gives on the condition of the report, and the count register is among them just if
the last predicate counts down, or the template's own condition where there is none. -/
theorem implicitOf_of_visits {sites : List Site} (hTidy : e.opcode.Tidy)
    (hCarries : ∃ report : Report, insn = { e with report := some report })
    (h : (insn.takeAll (.initial :: (sites.map .visit ++ [.finish]))).result = .ok after) :
    ∃ (report : Report) (seed : Option Condition),
      after = { e with report := some report } ∧
      report.effects.ImplicitOf e.opcode report.condition ∧
      (Condition.ofTemplate e).result = .ok seed ∧
      countsDown report.condition = sites.foldl (Site.countsAfter e) (countsDown seed) := by
  obtain ⟨next, hInitial, hRest⟩ := Outcome.result_bind_eq_ok_iff.mp h
  obtain ⟨seed, hSeed, hUnsettled⟩ := unsettled_of_initial hCarries hInitial
  obtain ⟨report, hAfter, hImplicit, hCondition⟩ := hUnsettled.finish_of_visits hTidy hRest
  exact ⟨report, seed, hAfter, hImplicit, hSeed,
    hCondition ▸ countsDown_conditionAfter e seed sites⟩

end Visits

/-! ## Filling -/

/-- Filling a screened instruction gives the registers and groups of its template, with the
count register behind those on either side just if the condition that is reported counts
down, and the jump group behind the others just for a branch.  The first condition field
counts as recorded just if the template lists it as written, whatever the operands write;
and there is a condition just if the template spells one out or has a predicate.  What is
said of the count register holds after visits of any sites, whichever the template has. -/
theorem take_fill_settled {e : Encoded} {insn : Instruction} (hTable : e.opcode ∈ templates)
    (hBuild : Instruction.build e true = .ok insn) :
    (∃ report : Report,
      (insn.take .fill).result = .ok { insn with report := some report } ∧
      report.effects.reads.items =
        (if countsDown report.condition then mention e.opcode.reads .ctr else e.opcode.reads) ∧
      report.effects.writes.items =
        (if countsDown report.condition then mention e.opcode.writes .ctr
          else e.opcode.writes) ∧
      (report.effects.recordsResult = true ↔ .conditionField 0 ∈ e.opcode.writes) ∧
      report.effects.groups.items =
        (if e.opcode.branch || e.opcode.indirect then e.opcode.groups ++ [.jump]
          else e.opcode.groups) ∧
      report.condition.isSome =
        (e.opcode.condition.isSome || e.opcode.sites.any Site.isPredicate)) ∧
    ∀ (sites : List Site) (after : Instruction),
      (insn.takeAll (.initial :: (sites.map .visit ++ [.finish]))).result = .ok after →
        ∃ (report : Report) (seed : Option Condition),
          after = { e with report := some report } ∧
          report.effects.ImplicitOf e.opcode report.condition ∧
          (Condition.ofTemplate e).result = .ok seed ∧
          countsDown report.condition =
            sites.foldl (Site.countsAfter e) (countsDown seed) := by
  have hTidy := tidy_of_mem_templates hTable
  cases eq_ofEncoded_of_build hBuild
  refine ⟨?_, fun sites after => implicitOf_of_visits hTidy ⟨default, rfl⟩⟩
  obtain ⟨condition, _, effects, hCondition, _, _, hFill⟩ :=
    Report.fill_of_wellFormed (wellFormed_of_mem_templates hTable)
  have hImplicit := Report.fill_implicit hTable hFill
  refine ⟨_, congrArg (Except.map _) hFill, hImplicit.reads, hImplicit.writes,
    hImplicit.recordsResult_iff hTidy, ?_, ?_⟩
  · rw [hImplicit.groups, mention, if_neg (jump_not_mem_groups hTable)]
    rfl
  · rw [isSome_conditionAfter, Condition.isSome_ofTemplate hCondition]

/-- A branch through the count register that would count it down first. -/
def countDownToCount : Encoded where
  opcode := (templates.find? (·.name == "BCCCTR")).get (by decide +kernel)
  fields := [.immediate 16, .register 0]

/-- The template lists the count register as read, so that counting down adds it as written
only. -/
theorem take_fill_countDownToCount :
    countDownToCount.opcode ∈ templates ∧
      Instruction.build countDownToCount true =
        .ok { countDownToCount with report := some (default : Report) } ∧
      ∃ report : Report,
        (Instruction.take { countDownToCount with report := some (default : Report) }
          .fill).result = .ok { countDownToCount with report := some report } ∧
        report.effects.reads.items = [.ctr] ∧ report.effects.writes.items = [.ctr] := by
  have hTable : countDownToCount.opcode ∈ templates := by
    dsimp only [countDownToCount]
    exact List.get_find?_mem _
  have hBuild : Instruction.build countDownToCount true =
      .ok { countDownToCount with report := some (default : Report) } := rfl
  obtain ⟨⟨report, hFill, hReads, hWrites, _⟩, _⟩ := take_fill_settled hTable hBuild
  refine ⟨hTable, hBuild, report, hFill, ?_⟩
  cases hFill
  exact ⟨hReads, hWrites⟩

end OperandReport.Power
