import OperandReport.Power.Assembly
import OperandReport.Power.Screening
import OperandReport.Proofs.Power.Contribution
import OperandReport.Proofs.Power.Effects

/-!
# Filling PowerPC reports

On a closed cursor with room for all operands a run over sites cannot end in a fault.
`Report.visitAll_of_room` is an equation: the operands are those that the sites complete,
in order, the condition is what the condition sites make of it, and the effects are left
alone.

The template bounds what its sites complete, and the table keeps this bound within the
capacity of a report.  So every screened instruction has a report, with its memory
operands balanced: each is bracketed by one site, and a memory site without a base
register leaves immediates or its fields on their own behind.

## Main results

* `Report.visitAll_of_room`: a run over sites.
* `wellFormed_of_mem_templates`: what the table promises.
* `take_fill_of_screened`: filling a screened instruction gives a report.
-/

namespace OperandReport.Power

/-! ## Sites -/

namespace Site

/-- What the site completes while nothing is open. -/
def completed (e : Encoded) : Site → List Operand
  | condition .. => []
  | operand form i => Edit.completedBy (form.edits e i)

/-- The site opens and closes a memory operand. -/
def brackets (e : Encoded) : Site → Bool
  | condition .. => false
  | operand form i => form.brackets e i

/-- The most operands that the site completes, whatever the fields are. -/
def limit : Site → Nat
  | condition .. => 0
  | operand form _ => form.limit

theorem length_completed_le_limit (e : Encoded) (site : Site) :
    (site.completed e).length ≤ site.limit := by
  cases site with
  | condition form i => exact Nat.zero_le _
  | operand form i => exact (form.contributes e i).count

/-- One site completes a memory operand just when it brackets. -/
theorem countP_isMemory_completed (e : Encoded) (site : Site) :
    (site.completed e).countP Operand.isMemory = (site.brackets e).toNat := by
  cases site with
  | condition form i => rfl
  | operand form i => exact (form.contributes e i).memory

end Site

/-- The most operands that sites complete, whatever the fields are. -/
def limits : List Site → Nat
  | [] => 0
  | site :: rest => site.limit + limits rest

/-- The sites stay within their limits. -/
theorem length_completed_le_limits (e : Encoded) (sites : List Site) :
    (sites.flatMap (Site.completed e)).length ≤ limits sites := by
  induction sites with
  | nil => exact Nat.le_refl 0
  | cons site rest ih =>
      have hHead := site.length_completed_le_limit e
      rw [List.flatMap_cons, List.length_append]
      exact Nat.add_le_add hHead ih

/-- The memory operands that sites complete are as many as the bracketing sites. -/
theorem countP_isMemory_flatMap (e : Encoded) (sites : List Site) :
    (sites.flatMap (Site.completed e)).countP Operand.isMemory =
      sites.countP (Site.brackets e) := by
  induction sites with
  | nil => rfl
  | cons site rest ih =>
      rw [List.flatMap_cons, List.countP_append, ih, site.countP_isMemory_completed,
        List.countP_cons, Nat.add_comm]
      cases site.brackets e with
      | true => rfl
      | false => rfl

/-- What the condition sites make of a condition. -/
def conditionAfter (e : Encoded) (condition : Option Condition) : List Site → Option Condition
  | [] => condition
  | .condition form i :: rest => conditionAfter e (form.apply e i condition) rest
  | .operand .. :: rest => conditionAfter e condition rest

/-- After any sites the condition is still a decoded one. -/
theorem conditionAfter_decoded {e : Encoded} {condition : Option Condition} (sites : List Site)
    (h : ∀ c ∈ condition, c.Decoded) : ∀ c ∈ conditionAfter e condition sites, c.Decoded := by
  induction sites generalizing condition with
  | nil => exact h
  | cons site rest ih =>
      cases site with
      | condition form i => exact ih (form.apply_decoded e i h)
      | operand form i => exact ih h

/-! ## Visits -/

namespace Report

/-- An operand form completes its operands, or finds the report full. -/
theorem visit_operand {e : Encoded} {report : Report} (hRest : report.operands.AtRest)
    (form : OperandForm) (i : Nat) :
    (report.visit e (.operand form i)).result =
      if report.operands.length + (Site.completed e (.operand form i)).length ≤ operandCapacity
      then .ok { report with
        operands := report.operands.extend (Site.completed e (.operand form i)) }
      else .error (.operandsFull operandCapacity) :=
  Cursor.map_applyAll_of_additive hRest (form.contributes e i).additive _

/-- With room for all operands, a run over sites completes them and ends in no fault. -/
theorem visitAll_of_room {e : Encoded} {sites : List Site} {report : Report}
    (hRest : report.operands.AtRest)
    (hRoom : report.operands.length + (sites.flatMap (Site.completed e)).length ≤
      operandCapacity) :
    (report.visitAll e sites).result = .ok { report with
      condition := conditionAfter e report.condition sites
      operands := report.operands.extend (sites.flatMap (Site.completed e)) } := by
  induction sites generalizing report with
  | nil => rfl
  | cons site rest ih =>
      rw [List.flatMap_cons, List.length_append] at hRoom
      cases site with
      | condition form i =>
          let next : Report := { report with condition := form.apply e i report.condition }
          have hVisit : (report.visit e (.condition form i)).result = .ok next := rfl
          have hNone : Site.completed e (.condition form i) = [] := rfl
          have hNext : next.operands.AtRest := hRest
          rw [hNone, List.length_nil, Nat.zero_add] at hRoom
          rw [visitAll, Outcome.result_bind_ok hVisit, ih hNext hRoom]
          rfl
      | operand form i =>
          have hFirst : report.operands.length + (Site.completed e (.operand form i)).length ≤
              operandCapacity := by
            omega
          have hVisit := visit_operand (e := e) hRest form i
          rw [if_pos hFirst] at hVisit
          have hNext := Cursor.atRest_extend hRest hFirst
          rw [visitAll, Outcome.result_bind_ok hVisit, ih hNext]
          · simp only [Cursor.extend_extend, List.flatMap_cons]
            rfl
          · rw [Cursor.length_extend]
            omega

end Report

/-! ## The table -/

/-- The numbers that the form computes without wrapping stay in range.  An unsigned field
is cut out by a mask, a power of two less one; a signed one is shifted up to the sign bit
and back. -/
def OperandForm.inRange : OperandForm → Bool
  | .unsigned bits => bits < 63
  | .signed bits => 0 < bits && bits ≤ 64
  | _ => true

/-- The numbers that the site computes without wrapping stay in range: those of its form,
the number of a condition bit, which is a byte, and the end of its window. -/
structure Site.InRange (e : Encoded) (site : Site) : Prop where
  window : site.slot + site.width < 0x100000000
  width : ∀ form i, site = .operand form i → form.inRange = true
  bit : ∀ i, site = .condition .predicate i →
    Condition.predicateBit (e.immediate i).toNat (registerAt e (i + 1)) < 256

/-- The template has room for its sets and its operands, and it lists the jump group only
if it jumps. -/
structure Template.WellFormed (t : Template) : Prop where
  sets : t.HasRoom
  operands : limits t.sites ≤ operandCapacity
  jumps : .jump ∈ t.groups → t.jumps = true

instance (t : Template) : Decidable t.WellFormed :=
  decidable_of_iff
    (t.HasRoom ∧ limits t.sites ≤ operandCapacity ∧ (.jump ∈ t.groups → t.jumps = true))
    ⟨fun ⟨hSets, hOperands, hJumps⟩ => ⟨hSets, hOperands, hJumps⟩,
      fun h => ⟨h.sets, h.operands, h.jumps⟩⟩

/-- Every template of the table is well-formed. -/
theorem wellFormed_of_mem_templates {t : Template} (ht : t ∈ templates) : t.WellFormed := by
  have hAll : ∀ t ∈ templates, t.WellFormed := by decide +kernel
  exact hAll t ht

/-- No number that a site of the table computes gets out of range. -/
theorem inRange_of_mem_templates {e : Encoded} (hTable : e.opcode ∈ templates) :
    ∀ site ∈ e.opcode.sites, site.InRange e := by
  have hWindows : ∀ t ∈ templates, ∀ site ∈ t.sites, site.slot + site.width < 0x100000000 := by
    decide +kernel
  have hWidths : ∀ t ∈ templates, ∀ site ∈ t.sites,
      (match site with
        | .condition .. => true
        | .operand form _ => form.inRange) = true := by
    decide +kernel
  intro site hSite
  refine ⟨hWindows _ hTable site hSite, ?_, ?_⟩
  · rintro form i rfl
    exact hWidths _ hTable _ hSite
  · rintro i rfl
    have hBit := Condition.predicateBit_lt (e.immediate i).toNat (registerAt e (i + 1))
    omega

/-! ## Filling -/

namespace Report

/-- The report of a template comes about without a fault. -/
theorem initial_progress {e : Encoded} (hTable : e.opcode.WellFormed) :
    ∃ condition effects, (Condition.ofTemplate e).result = .ok condition ∧
      Effects.ofTemplate e.opcode = .ok effects ∧
      (initial e).result = .ok { condition, effects } ∧ (∀ c ∈ condition, c.Decoded) ∧
      effects.Sound e.opcode ∧ effects.groups.items ⊆ e.opcode.groups := by
  obtain ⟨condition, hCondition, hDecoded⟩ := Condition.ofTemplate_decoded e
  obtain ⟨effects, hEffects, hSound, hGroups⟩ := Effects.ofTemplate_sound hTable.sets
  refine ⟨condition, effects, hCondition, hEffects, ?_, hDecoded, hSound, hGroups⟩
  rw [initial, Outcome.result_bind_ok hCondition, Outcome.result_ofResult, hEffects]
  rfl

/-- While nothing is open, settling is settling of the effects. -/
theorem finish_of_closed {e : Encoded} {report : Report}
    (hClosed : report.operands.isOpen = false) :
    report.finish e = (report.effects.settle e.opcode report.condition).map fun effects =>
      { report with effects } := by
  rw [finish, hClosed]
  rfl

/-- Filling settles the effects of the template on the condition that the sites leave, and
the operands are those that the sites complete. -/
theorem fill_of_wellFormed {e : Encoded} (hTable : e.opcode.WellFormed) :
    ∃ condition fresh effects, (Condition.ofTemplate e).result = .ok condition ∧
      Effects.ofTemplate e.opcode = .ok fresh ∧
      fresh.settle e.opcode (conditionAfter e condition e.opcode.sites) = .ok effects ∧
      (fill e).result = .ok {
        operands := Cursor.empty.extend (e.opcode.sites.flatMap (Site.completed e))
        condition := conditionAfter e condition e.opcode.sites
        effects } := by
  obtain ⟨condition, fresh, hCondition, hEffects, hFresh, _, hSound, _⟩ :=
    initial_progress hTable
  obtain ⟨effects, hSettle, _⟩ :=
    Effects.settle_sound hTable.sets hSound (conditionAfter e condition e.opcode.sites)
  have hRoom : (Cursor.empty : Cursor Operand operandCapacity).length +
      (e.opcode.sites.flatMap (Site.completed e)).length ≤ operandCapacity := by
    have hLimits := length_completed_le_limits e e.opcode.sites
    have hCapacity := hTable.operands
    show 0 + _ ≤ operandCapacity
    omega
  let initialReport : Report := { condition, effects := fresh }
  have hEmpty : initialReport.operands.AtRest := Cursor.atRest_empty
  have hVisit := visitAll_of_room hEmpty hRoom
  refine ⟨condition, fresh, effects, hCondition, hEffects, hSettle, ?_⟩
  rw [fill, Outcome.result_bind_ok hFresh, Outcome.result_bind_ok hVisit,
    Outcome.result_ofResult, finish_of_closed rfl, hSettle]
  rfl

/-- Filling gives a report with the operands that the sites complete. -/
theorem fill_progress {e : Encoded} (hTable : e.opcode.WellFormed) :
    ∃ report, (fill e).result = .ok report ∧
      report.operands = Cursor.empty.extend (e.opcode.sites.flatMap (Site.completed e)) ∧
      (∀ c ∈ report.condition, c.Sound) ∧ report.effects.Sound e.opcode ∧
      (.jump ∈ report.effects.groups.items ↔ e.opcode.jumps = true) := by
  obtain ⟨condition, fresh, hCondition, hEffects, _, hDecoded, hSound, hGroups⟩ :=
    initial_progress hTable
  obtain ⟨_, _, effects, hSame, hAlso, hSettle, hFill⟩ := fill_of_wellFormed hTable
  cases hCondition.symm.trans hSame
  cases hEffects.symm.trans hAlso
  obtain ⟨_, hSettled, hAfter, hJump⟩ :=
    Effects.settle_sound hTable.sets hSound (conditionAfter e condition e.opcode.sites)
  cases hSettle.symm.trans hSettled
  have hListed : .jump ∈ fresh.groups.items → e.opcode.jumps = true := fun hMem =>
    hTable.jumps (hGroups hMem)
  refine ⟨_, hFill, rfl, ?_, hAfter, ?_⟩
  · exact fun c hc => (conditionAfter_decoded _ hDecoded c hc).sound
  · rw [hJump, or_iff_right_of_imp hListed]

end Report

/-- A screened instruction is the encoded one with a fresh report, or without one. -/
theorem eq_ofEncoded_of_build {e : Encoded} {detail : Bool} {insn : Instruction}
    (h : Instruction.build e detail = .ok insn) : insn = .ofEncoded e detail := by
  obtain ⟨_, _, rfl⟩ := map_eq_ok_iff.mp h
  rfl

/-- Filling a screened instruction gives a report, and no number that is computed on the
way overflows.  Nothing is open, the operands are at most eight, and the jump group is
there just for branches.  The memory operands are those of the bracketing sites; without
a base register a displacement is one immediate, and an indexed form is its two fields on
their own, unless they are vacant. -/
theorem take_fill_of_screened {e : Encoded} {insn : Instruction} (hTable : e.opcode ∈ templates)
    (hBuild : Instruction.build e true = .ok insn) :
    (∃ report : Report,
      (insn.take .fill).result = .ok { insn with report := some report } ∧
      report.operands.isOpen = false ∧ report.operands.length ≤ 8 ∧
      (.jump ∈ report.effects.groups.items ↔ (e.opcode.branch || e.opcode.indirect) = true) ∧
      report.operands.toList = e.opcode.sites.flatMap (Site.completed e) ∧
      report.operands.toList.countP Operand.isMemory = e.opcode.sites.countP (Site.brackets e) ∧
      ∀ c, report.condition = some c → c.Sound) ∧
    (∀ site ∈ e.opcode.sites, site.InRange e) ∧
    (∀ (form : OperandForm) (i : Nat), form.isDisplaced = true → e.isRegister (i + 1) = false →
      (Site.operand form i).completed e = [.ofImmediate (form.displacement e i)]) ∧
    (∀ i : Nat, e.isRegister i = false →
      (Site.operand .indexed i).completed e =
        (fieldOperand? e i).toList ++ (fieldOperand? e (i + 1)).toList) ∧
    ∀ i : Nat, fieldOperand? e i = none ↔ (e.field i).isVacant = true := by
  have hFormed := wellFormed_of_mem_templates hTable
  cases eq_ofEncoded_of_build hBuild
  refine ⟨?_, inRange_of_mem_templates hTable, ?_, ?_, fun _ => fieldOperand?_eq_none_iff⟩
  · obtain ⟨report, hFill, hOperands, hCondition, _, hJump⟩ := Report.fill_progress hFormed
    have hTake : (Instruction.take (.ofEncoded e true) .fill).result =
        (Report.fill e).result.map fun report =>
          { (.ofEncoded e true : Instruction) with report := some report } := rfl
    have hList : report.operands.toList = e.opcode.sites.flatMap (Site.completed e) := by
      rw [hOperands, Cursor.toList_extend]
      rfl
    refine ⟨report, ?_, ?_, ?_, hJump, hList, ?_, hCondition⟩
    · rw [hTake, hFill]
      rfl
    · rw [hOperands]
      rfl
    · rw [← Cursor.length_toList, hList]
      exact Nat.le_trans (length_completed_le_limits e _) hFormed.operands
    · rw [hList, countP_isMemory_flatMap]
  · intro form i hForm hNoBase
    have hCompleted := OperandForm.completed_of_displaced e i hForm
    rw [hNoBase] at hCompleted
    exact hCompleted
  · intro i hNoBase
    have hCompleted := OperandForm.completed_of_indexed e i
    rw [hNoBase] at hCompleted
    exact hCompleted

/-- An indexed load whose base is a symbol. -/
def loadFromSymbol : Encoded where
  opcode := (templates.find? (·.name == "LWZX")).get (by decide +kernel)
  fields := [.register 12, .immediate 64, .register 14]

/-- A load from a symbol reports its two address fields on their own, and no memory
operand. -/
theorem take_fill_loadFromSymbol :
    loadFromSymbol.opcode ∈ templates ∧
      Instruction.build loadFromSymbol true =
        .ok { loadFromSymbol with report := some (default : Report) } ∧
      ∃ report : Report,
        (Instruction.take { loadFromSymbol with report := some (default : Report) } .fill).result =
          .ok { loadFromSymbol with report := some report } ∧
        report.operands.toList =
          [⟨.register ⟨12⟩, .writes⟩, .ofImmediate 64, ⟨.register ⟨14⟩, .reads⟩] := by
  have hTable : loadFromSymbol.opcode ∈ templates := by
    dsimp only [loadFromSymbol]
    exact List.get_find?_mem _
  have hBuild : Instruction.build loadFromSymbol true =
      .ok { loadFromSymbol with report := some (default : Report) } := rfl
  obtain ⟨⟨report, hFill, _, _, _, hList, _⟩, _⟩ := take_fill_of_screened hTable hBuild
  exact ⟨hTable, hBuild, report, hFill, hList⟩

end OperandReport.Power
