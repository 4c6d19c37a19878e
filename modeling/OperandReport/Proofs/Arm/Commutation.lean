import OperandReport.Proofs.Arm.Steps

/-!
# Effects and operands commute

An effect form works on the effects of a report and an operand form on its operands.
Neither reads what the other one writes, and an effect form never ends in a fault on a
report that steps can reach.  So two such visits can be taken in either order: the
notes, the report and the fault are the same.

By moving one site at a time, the effects of a run may all be taken first.  The tables rely
on it: they list a predicate or the flag bit before the operands that it follows in the
text.

## Main results

* `Report.visit_comm`: two visits.
* `Report.visitAll_eq_effects_first`: a run over sites.
* `takeAll_visit_comm`: two visits after any run of steps.
-/

namespace OperandReport.Arm

/-- The site is one of an effect. -/
def Site.isEffect : Site → Bool
  | effect .. => true
  | operand .. => false

namespace Report

variable {e : Encoded} {report : Report}

/-- On sound effects an effect form gives new effects that do not depend on the
operands. -/
theorem visit_effect_of_sound (hTable : e.opcode.HasRoom) (hSound : report.effects.Sound e.opcode)
    (form : EffectForm) (i : Nat) :
    ∃ effects : Effects, effects.Sound e.opcode ∧ ∀ operands,
      visit e { report with operands } (.effect form i) = .ok { operands, effects } := by
  obtain ⟨effects, hApply, hEffects⟩ := Effects.apply_sound hTable hSound i form
  refine ⟨effects, hEffects, fun operands => ?_⟩
  rw [visit, hApply]
  rfl

/-- An effect and an operand form can be visited in either order. -/
theorem visit_comm (hTable : e.opcode.HasRoom) (hSound : report.effects.Sound e.opcode)
    (form : EffectForm) (i : Nat) (other : OperandForm) (j : Nat) :
    (report.visit e (.effect form i)).bind (visit e · (.operand other j)) =
      (report.visit e (.operand other j)).bind (visit e · (.effect form i)) := by
  obtain ⟨effects, _, hEffect⟩ := visit_effect_of_sound hTable hSound form i
  let edited := report.operands.applyAll (other.edits e j)
  have hFirst : report.visit e (.effect form i) = .ok { report with effects } :=
    hEffect report.operands
  calc (report.visit e (.effect form i)).bind (visit e · (.operand other j))
      = visit e { report with effects } (.operand other j) := by rw [hFirst, Outcome.ok_bind]
    _ = edited.bind fun operands => .ok { operands, effects } := by
        rw [visit, Outcome.map_eq_bind]
    _ = edited.bind fun operands => visit e { report with operands } (.effect form i) :=
        Outcome.bind_congr fun operands _ => (hEffect operands).symm
    _ = (report.visit e (.operand other j)).bind (visit e · (.effect form i)) := by
        rw [visit, Outcome.map_eq_bind, Outcome.bind_assoc]
        rfl

/-- An operand site can be taken after a list of effect sites. -/
theorem visitAll_cons_operand (hTable : e.opcode.HasRoom) (hSound : report.Sound e.opcode)
    (form : OperandForm) (i : Nat) {effects : List Site} (more : List Site)
    (hEffects : ∀ site ∈ effects, site.isEffect = true) :
    report.visitAll e (.operand form i :: (effects ++ more)) =
      report.visitAll e (effects ++ .operand form i :: more) := by
  induction effects generalizing report with
  | nil => rfl
  | cons site rest ih =>
      obtain ⟨hFirst, hRest⟩ := List.forall_mem_cons.mp hEffects
      cases site with
      | operand other j => contradiction
      | effect effect j =>
          have hComm := visit_comm hTable hSound.effects effect j form i
          calc report.visitAll e (.operand form i :: .effect effect j :: (rest ++ more))
              = ((report.visit e (.operand form i)).bind (visit e · (.effect effect j))).bind
                  (visitAll e · (rest ++ more)) := (Outcome.bind_assoc _ _ _).symm
            _ = ((report.visit e (.effect effect j)).bind (visit e · (.operand form i))).bind
                  (visitAll e · (rest ++ more)) := by rw [hComm]
            _ = (report.visit e (.effect effect j)).bind
                  (visitAll e · (.operand form i :: (rest ++ more))) := Outcome.bind_assoc _ _ _
            _ = (report.visit e (.effect effect j)).bind
                  (visitAll e · (rest ++ .operand form i :: more)) :=
                Outcome.bind_congr fun next hNext =>
                  ih (visit_sound hTable hSound hNext).1 hRest

/-- A run over sites is a run over the effect sites and then over the operand sites. -/
theorem visitAll_eq_effects_first (hTable : e.opcode.HasRoom) (hSound : report.Sound e.opcode)
    (sites : List Site) :
    report.visitAll e sites =
      report.visitAll e (sites.filter Site.isEffect ++ sites.filter (!·.isEffect)) := by
  induction sites generalizing report with
  | nil => rfl
  | cons site rest ih =>
      have hLater : report.visitAll e (site :: rest) = report.visitAll e
          (site :: (rest.filter Site.isEffect ++ rest.filter (!·.isEffect))) :=
        Outcome.bind_congr fun next hNext => ih (visit_sound hTable hSound hNext).1
      cases site with
      | effect form i => exact hLater
      | operand form i =>
          have hEffects : ∀ site ∈ rest.filter Site.isEffect, site.isEffect = true :=
            fun site hSite => (List.mem_filter.mp hSite).2
          exact hLater.trans (visitAll_cons_operand hTable hSound form i _ hEffects)

end Report

/-- Without a report steps do nothing. -/
theorem takeAll_of_none {insn : Instruction} (h : insn.report = none) (steps : List Step) :
    Instruction.takeAll insn steps = .ok insn := by
  induction steps with
  | nil => rfl
  | cons step rest ih =>
      have hStep : Instruction.take insn step = .ok insn := by
        rw [Instruction.take, h]
      rw [Instruction.takeAll, hStep, Outcome.ok_bind, ih]

/-- Two visits on an instruction are the two visits on its report. -/
theorem takeAll_visit_visit (e : Encoded) (report : Report) (site other : Site) :
    Instruction.takeAll { e with report := some report } [.visit site, .visit other] =
      ((report.visit e site).bind (Report.visit e · other)).map fun report =>
        { e with report := some report } := by
  have hTake : ∀ (report : Report) (site : Site),
      Instruction.take { e with report := some report } (.visit site) =
        (report.visit e site).bind fun next => .ok { e with report := some next } := by
    intro report site
    rw [← Outcome.map_eq_bind]
    rfl
  rw [Instruction.takeAll, hTake, Outcome.map_eq_bind, Outcome.bind_assoc, Outcome.bind_assoc]
  refine Outcome.bind_congr fun next _ => ?_
  rw [Outcome.ok_bind, Instruction.takeAll, hTake]
  exact Outcome.bind_ok _

/-- A run of steps ends without a report if it started without one, and in a sound report
otherwise. -/
theorem takeAll_of_ofEncoded {e : Encoded} {detail : Bool} {steps : List Step}
    {insn : Instruction} (hTable : e.opcode.HasRoom)
    (hRun : (Instruction.takeAll (.ofEncoded e detail) steps).result = .ok insn) :
    insn.report = none ∨
      ∃ report : Report, insn = { e with report := some report } ∧ report.Sound e.opcode := by
  cases detail with
  | true => exact .inr (takeAll_sound hTable (Report.sound_default e.opcode) hRun)
  | false =>
      have hNone : (Instruction.ofEncoded e false : Instruction).report = none := rfl
      rw [takeAll_of_none hNone] at hRun
      cases hRun
      exact .inl hNone

/-- After any run of steps on any instruction of the table, an effect and an operand form
can be visited in either order, at any fields, with the same outcome.  The effect form gives
a report, with the same operands, and the operand form changes only the operands. -/
theorem takeAll_visit_comm {e : Encoded} {detail : Bool} {steps : List Step} {insn : Instruction}
    (hTable : e.opcode ∈ templates)
    (hRun : (Instruction.takeAll (.ofEncoded e detail) steps).result = .ok insn)
    (form : EffectForm) (i : Nat) (other : OperandForm) (j : Nat) :
    Instruction.takeAll insn [.visit (.effect form i), .visit (.operand other j)] =
      Instruction.takeAll insn [.visit (.operand other j), .visit (.effect form i)] ∧
    ∀ report, insn.report = some report →
      (∃ effects, report.visit e (.effect form i) = .ok { report with effects }) ∧
      ∀ after, (report.visit e (.operand other j)).result = .ok after →
        ∃ operands, after = { report with operands } := by
  have hRoom := hasRoom_of_mem_templates hTable
  rcases takeAll_of_ofEncoded hRoom hRun with hNone | ⟨report, rfl, hSound⟩
  · constructor
    · rw [takeAll_of_none hNone, takeAll_of_none hNone]
    · intro report hSome
      rw [hNone] at hSome
      contradiction
  · constructor
    · rw [takeAll_visit_visit, takeAll_visit_visit,
        Report.visit_comm hRoom hSound.effects form i other j]
    · intro report hSome
      cases hSome
      constructor
      · obtain ⟨effects, _, hEffect⟩ :=
          Report.visit_effect_of_sound hRoom hSound.effects form i
        exact ⟨effects, hEffect report.operands⟩
      · intro after hAfter
        obtain ⟨operands, _, rfl⟩ := map_eq_ok_iff.mp hAfter
        exact ⟨operands, rfl⟩

/-- A conditional store of a word. -/
def storeWordIfEqual : Encoded where
  opcode := (templates.find? (·.name == "STRi12")).get (by decide +kernel)
  fields := [.register 32, .register 33, .immediate 4, .immediate 0, .register 3]

/-- While the memory operand of a store is open, its predicate and its base can be read in
either order. -/
theorem takeAll_visit_comm_storeWordIfEqual :
    storeWordIfEqual.opcode ∈ templates ∧ ∃ opened : Instruction,
      (Instruction.takeAll (.ofEncoded storeWordIfEqual true) [.initial, .openMemory]).result =
        .ok opened ∧
      Instruction.takeAll opened [.visit (.effect .predicate 3), .visit (.operand .plain 1)] =
        Instruction.takeAll opened
          [.visit (.operand .plain 1), .visit (.effect .predicate 3)] := by
  have hTable : storeWordIfEqual.opcode ∈ templates := by
    dsimp only [storeWordIfEqual]
    exact List.get_find?_mem _
  obtain ⟨opened, hOpened⟩ : ∃ opened,
      (Instruction.takeAll (.ofEncoded storeWordIfEqual true) [.initial, .openMemory]).result =
        .ok opened := ⟨_, rfl⟩
  exact ⟨hTable, opened, hOpened, (takeAll_visit_comm hTable hOpened .predicate 3 .plain 1).1⟩

end OperandReport.Arm
