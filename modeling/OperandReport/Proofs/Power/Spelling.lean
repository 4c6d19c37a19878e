import OperandReport.Proofs.Power.Fill

/-!
# Two spellings of a conditional branch

A conditional branch may be written with a predicate code and a condition field, or with
`bo` and the number of a condition bit.  A predicate code below 128 holds `bo` and, above
it, the place of the bit in its field, so either spelling can be turned into the other.

Filling reads the two by different ways: the first by way of the predicate sites, the
second by way of the condition that the template spells out.  Both arrive at the same
condition, the same effects and the same target, but for the hint.  The site of a predicate
hint takes the low two bits of the code, whatever `bo` tests.  These are the prediction bits
if the condition register alone is tested; otherwise the prediction bits stand elsewhere, or
there are none, and the two spellings may differ.

## Main results

* `ofPredicate_code`, `ofTemplate_spelledOut`: the condition in either spelling.
* `Hint.ofBits_eq_predictionBits_iff`: when both give the same hint.
* `fill_spellings`: the reports of both spellings.
-/

namespace OperandReport.Power

/-! ## Spellings -/

/-- The predicate code of `bo` and a place in a condition field. -/
def predicateCode (bo bit : Nat) : Nat := 32 * bit + bo

/-- The fields of a branch on a predicate: a code, a condition field and a target. -/
def predicateFields (bo field bit : Nat) (target : Imm) : List Field :=
  [.immediate (.ofNat 64 (predicateCode bo bit)), .register (Register.conditionField field).id,
    .immediate target]

/-- The fields of a branch that spells out `bo` and the number of a condition bit. -/
def spelledFields (bo field bit : Nat) (target : Imm) : List Field :=
  [.immediate (.ofNat 64 bo), .register (Register.bitOf field bit).id, .immediate target]

/-- The site that shows the target of a conditional branch. -/
def Template.targetSite (t : Template) : Site :=
  .operand (if t.absolute then .absoluteBranch else .branch) 2

/-- A conditional branch on a predicate. -/
structure Template.Predicated (t : Template) : Prop where
  slots : t.slots = [.num, .src, .num]
  sites : t.sites = [.condition .predicate 0, .condition .predicateHint 0,
    .operand .predicateRegister 0, t.targetSite]
  condition : t.condition = none
  vectorScalarSlots : t.vectorScalarSlots = []

instance (t : Template) : Decidable t.Predicated :=
  decidable_of_iff
    (t.slots = [.num, .src, .num] ∧
      t.sites = [.condition .predicate 0, .condition .predicateHint 0,
        .operand .predicateRegister 0, t.targetSite] ∧
      t.condition = none ∧ t.vectorScalarSlots = [])
    ⟨fun ⟨hSlots, hSites, hCondition, hVector⟩ => ⟨hSlots, hSites, hCondition, hVector⟩,
      fun h => ⟨h.slots, h.sites, h.condition, h.vectorScalarSlots⟩⟩

/-- The same branch with the fields of its condition spelled out. -/
def Template.spelledOut (t : Template) (name mnemonic : String) : Template :=
  { t with
    name, mnemonic
    sites := [.operand .plain 0, .operand .plain 1, t.targetSite]
    condition := some (.slot 0, .slot 1) }

/-- The names of the conditional branches on a predicate and of those spelled out. -/
def spellings : List (String × String) :=
  [("BCC", "gBC"), ("BCCL", "gBCL"), ("BCCA", "gBCA"), ("BCCLA", "gBCLA")]

/-- The template with a name. -/
def Template.named? (name : String) : Option Template := templates.find? (·.name == name)

/-- The two spellings of a branch differ in nothing else. -/
theorem spelledOut_of_mem_spellings {names : String × String} (h : names ∈ spellings) :
    ∃ t mnemonic, Template.named? names.1 = some t ∧
      Template.named? names.2 = some (t.spelledOut names.2 mnemonic) ∧ t.Predicated := by
  have hEach : ∀ names ∈ spellings,
      ∃ t ∈ Template.named? names.1, ∃ u ∈ Template.named? names.2,
        t.Predicated ∧ t.spelledOut names.2 u.mnemonic = u := by
    decide +kernel
  obtain ⟨t, ht, u, hu, hPredicated, hSpelled⟩ := hEach names h
  exact ⟨t, u.mnemonic, ht, hSpelled ▸ hu, hPredicated⟩

/-! ## Registers -/

/-- What is known of a register of a family by its number. -/
structure Register.IsNth (r : Register) (family : Register.Family) (n : Nat) : Prop where
  known : (ofId? r.id).isSome = true
  family : r.family? = some family
  index : r.index? = some n

instance (r : Register) (family : Register.Family) (n : Nat) : Decidable (r.IsNth family n) :=
  decidable_of_iff
    ((Register.ofId? r.id).isSome = true ∧ r.family? = some family ∧ r.index? = some n)
    ⟨fun ⟨hKnown, hFamily, hIndex⟩ => ⟨hKnown, hFamily, hIndex⟩,
      fun h => ⟨h.known, h.family, h.index⟩⟩

theorem Register.conditionField_isNth {n : Nat} (h : n < 8) :
    (conditionField n).IsNth .conditionField n := by
  have hAll : ∀ n < 8, (conditionField n).IsNth .conditionField n := by decide
  exact hAll n h

theorem Register.bitOf_isNth {field bit : Nat} (hField : field < 8) (hBit : bit < 4) :
    (bitOf field bit).IsNth .conditionBit (4 * field + bit) := by
  have hAll : ∀ field < 8, ∀ bit < 4,
      (bitOf field bit).IsNth .conditionBit (4 * field + bit) := by decide
  exact hAll field hField bit hBit

/-! ## Conditions -/

section Conditions

variable {bo field bit : Nat}

/-- A predicate code gives the condition of its parts. -/
theorem Condition.ofPredicate_code (hBo : bo < 32) (hField : field < 8) (hBit : bit < 4) :
    ofPredicate (predicateCode bo bit) (.conditionField field) = decode bo (4 * field + bit) := by
  have hNth := Register.conditionField_isNth hField
  have hLow : (32 * bit + bo) % 32 = bo := by omega
  have hHigh : (32 * bit + bo) / 32 % 4 = bit := by omega
  unfold ofPredicate predicateCode
  rw [if_neg (by unfold bitSetCode; omega), if_neg (by unfold bitClearCode; omega), hNth.family,
    hNth.index, hLow, hHigh]
  rfl

/-- A code has the hint of `bo`. -/
theorem Hint.ofBits_code (bo bit : Nat) : ofBits (predicateCode bo bit) = ofBits bo := by
  have hLow : predicateCode bo bit % 4 = bo % 4 := by unfold predicateCode; omega
  rw [ofBits, hLow, ofBits]

variable {target : Imm} {address : BitVec 64} {mode : Mode} {t : Template}

/-- The predicate sites leave the condition of the code, with the hint of its low bits. -/
theorem conditionAfter_predicated (ht : t.Predicated) (hBo : bo < 32) (hField : field < 8)
    (hBit : bit < 4) :
    conditionAfter ⟨t, predicateFields bo field bit target, address, mode⟩ none t.sites =
      some { Condition.decode bo (4 * field + bit) with hint := .ofBits bo } := by
  let e : Encoded := ⟨t, predicateFields bo field bit target, address, mode⟩
  have hRegister : registerAt e 1 = .conditionField field :=
    registerAt_of_field rfl (Register.conditionField_isNth hField).known
  have hCode : (e.immediate 0).toNat = predicateCode bo bit := by
    show (BitVec.ofNat 64 (predicateCode bo bit)).toNat = _
    unfold predicateCode
    rw [BitVec.toNat_ofNat]
    omega
  have hNot : ¬ (predicateCode bo bit = bitSetCode ∨ predicateCode bo bit = bitClearCode) := by
    unfold predicateCode bitSetCode bitClearCode
    omega
  rw [ht.sites]
  show ConditionForm.predicateHint.apply e 0 (ConditionForm.predicate.apply e 0 none) = _
  simp only [ConditionForm.apply, hCode, hRegister, if_neg hNot,
    Condition.ofPredicate_code hBo hField hBit, Hint.ofBits_code, Option.map_some]

/-- Without condition fields a template gives no condition. -/
theorem Condition.ofTemplate_of_none {e : Encoded} (h : e.opcode.condition = none) :
    ofTemplate e = .ok none := by
  simp only [ofTemplate, h]

/-- The fields spelled out give the same condition, with the prediction bits as its hint. -/
theorem ofTemplate_spelledOut (name mnemonic : String) (hBo : bo < 32) (hField : field < 8)
    (hBit : bit < 4) :
    (Condition.ofTemplate ⟨t.spelledOut name mnemonic, spelledFields bo field bit target, address,
      mode⟩).result = .ok (some (.decode bo (4 * field + bit))) := by
  let e : Encoded :=
    ⟨t.spelledOut name mnemonic, spelledFields bo field bit target, address, mode⟩
  have hNth := Register.bitOf_isNth hField hBit
  have hRegister : registerAt e 1 = .bitOf field bit := registerAt_of_field rfl hNth.known
  have hFirst : ((ConditionSource.slot 0).read e).result = .ok bo := by
    show Except.ok (Imm.byte (BitVec.ofNat 64 bo)) = .ok bo
    rw [Imm.byte, BitVec.toNat_ofNat]
    congr 1
    omega
  have hSecond : ((ConditionSource.slot 1).read e).result = .ok (4 * field + bit) := by
    have hRead : (ConditionSource.slot 1).read e =
        if (registerAt e 1).family? = some .conditionBit then
          .ok ((registerAt e 1).index?.getD 0)
        else ⟨[s!"[ppc::mapping] {(registerAt e 1).name} isn't a condition register bit"], .ok 0⟩ :=
      rfl
    rw [hRead, hRegister, hNth.family, if_pos rfl, hNth.index]
    rfl
  show (((ConditionSource.slot 0).read e).bind fun bo =>
    ((ConditionSource.slot 1).read e).bind fun bi =>
      .ok (some (Condition.decode bo bi))).result = _
  rw [Outcome.result_bind_ok hFirst, Outcome.result_bind_ok hSecond]
  rfl

/-- Both places of the hint give the same one always, if the condition register alone is
tested; if the count alone is, then where the bit for zero is the same as the upper
prediction bit; and otherwise where the second bit of `bo` is clear. -/
theorem Hint.ofBits_eq_predictionBits_iff (hBo : bo < 32) :
    ofBits bo = ofBits (Condition.predictionBits bo) ↔
      (bo / 16 % 2 = 0 ∧ bo / 4 % 2 = 1) ∨
      (bo / 16 % 2 = 1 ∧ bo / 4 % 2 = 0 ∧ bo / 2 % 2 = bo / 8 % 2) ∨
      (bo / 16 % 2 = bo / 4 % 2 ∧ bo / 2 % 2 = 0) := by
  have hAll : ∀ bo < 32, ofBits bo = ofBits (Condition.predictionBits bo) ↔
      (bo / 16 % 2 = 0 ∧ bo / 4 % 2 = 1) ∨
      (bo / 16 % 2 = 1 ∧ bo / 4 % 2 = 0 ∧ bo / 2 % 2 = bo / 8 % 2) ∨
      (bo / 16 % 2 = bo / 4 % 2 ∧ bo / 2 % 2 = 0) := by decide
  exact hAll bo hBo

end Conditions

/-! ## Reports -/

/-- The target that a conditional branch shows. -/
def Template.target (t : Template) (address : BitVec 64) (mode : Mode) (v : Imm) : Imm :=
  if t.absolute then branchOffset v else addressIn mode (address + branchOffset v)

section Reports

variable {bo field bit : Nat} {target : Imm} {address : BitVec 64} {mode : Mode} {t : Template}

/-- An immediate at the site of the target shows the target. -/
theorem completed_targetSite {e : Encoded} {u : Template} (hOpcode : e.opcode.absolute = u.absolute)
    (hField : e.field 2 = .immediate target) :
    u.targetSite.completed e = [.ofImmediate (u.target e.address e.mode target)] := by
  have hImmediate : e.isImmediate 2 = true := by rw [Encoded.isImmediate, hField]
  have hValue : e.immediate 2 = target := by rw [Encoded.immediate, hField]
  unfold Template.targetSite Template.target Site.completed
  cases hAbsolute : u.absolute with
  | true =>
      show Edit.completedBy [reportImmediate (branchOffset (e.immediate 2))] = _
      rw [hValue]
      rfl
  | false =>
      show Edit.completedBy (branchEdits e 2) = _
      rw [branchEdits, if_pos hImmediate, hOpcode, hAbsolute, hValue]
      rfl

/-- The register in the second slot of a conditional branch is shown as one that is read. -/
theorem completedBy_source {e : Encoded} {r : Register}
    (hSlots : e.opcode.slots = [.num, .src, .num]) (hPlain : e.opcode.vectorScalarSlots = [])
    (hField : e.field 1 = .register r.id) (hKnown : (Register.ofId? r.id).isSome = true) :
    Edit.completedBy (registerEdits e 1) = [⟨.register r, .reads⟩] := by
  have hAccess : accessAt e 1 = .reads := by
    show e.opcode.slots.access 1 = .reads
    rw [hSlots]
    rfl
  have hShown : reportedRegister e 1 = r := by
    rw [reportedRegister, hPlain, if_neg List.not_mem_nil, registerAt_of_field hField hKnown]
  rw [completedBy_registerEdits, hShown, hAccess]

/-- The operands of a branch on a predicate: its condition field and the target. -/
theorem completed_predicated (ht : t.Predicated) (hField : field < 8) :
    t.sites.flatMap (Site.completed ⟨t, predicateFields bo field bit target, address, mode⟩) =
      [⟨.register (.conditionField field), .reads⟩,
        .ofImmediate (t.target address mode target)] := by
  let e : Encoded := ⟨t, predicateFields bo field bit target, address, mode⟩
  have hPredicate : Site.completed e (.operand .predicateRegister 0) =
      [⟨.register (.conditionField field), .reads⟩] := by
    have hSome : (Register.conditionField field).id ≠ 0 := by
      show 169 + field ≠ 0
      omega
    show Edit.completedBy (if (Register.conditionField field).id = 0 then []
      else registerEdits e 1) = _
    rw [if_neg hSome]
    exact completedBy_source ht.slots ht.vectorScalarSlots rfl
      (Register.conditionField_isNth hField).known
  have hTarget : t.targetSite.completed e = [.ofImmediate (t.target address mode target)] :=
    completed_targetSite rfl rfl
  rw [ht.sites]
  show [] ++ ([] ++ (Site.completed e (.operand .predicateRegister 0) ++
    (t.targetSite.completed e ++ []))) = _
  rw [hPredicate, hTarget]
  rfl

/-- The operands of the same branch spelled out: `bo`, the condition bit and the target. -/
theorem completed_spelledOut (ht : t.Predicated) (name mnemonic : String) (hField : field < 8)
    (hBit : bit < 4) :
    (t.spelledOut name mnemonic).sites.flatMap (Site.completed
      ⟨t.spelledOut name mnemonic, spelledFields bo field bit target, address, mode⟩) =
      [.ofImmediate (.ofNat 64 bo), ⟨.register (.bitOf field bit), .reads⟩,
        .ofImmediate (t.target address mode target)] := by
  let e : Encoded :=
    ⟨t.spelledOut name mnemonic, spelledFields bo field bit target, address, mode⟩
  have hFirst : Site.completed e (.operand .plain 0) = [.ofImmediate (.ofNat 64 bo)] := rfl
  have hSecond : Site.completed e (.operand .plain 1) =
      [⟨.register (.bitOf field bit), .reads⟩] := by
    have hSome : (Register.bitOf field bit).id ≠ 0 := by
      show 177 + (4 * field + bit) ≠ 0
      omega
    show Edit.completedBy (if (Register.bitOf field bit).id = 0 then []
      else registerEdits e 1) = _
    rw [if_neg hSome]
    exact completedBy_source ht.slots ht.vectorScalarSlots rfl
      (Register.bitOf_isNth hField hBit).known
  have hTarget : t.targetSite.completed e = [.ofImmediate (t.target address mode target)] :=
    completed_targetSite rfl rfl
  show Site.completed e (.operand .plain 0) ++ (Site.completed e (.operand .plain 1) ++
    (t.targetSite.completed e ++ [])) = _
  rw [hFirst, hSecond, hTarget]
  rfl

/-- Fields for an immediate, a register and an immediate suit the slots of a conditional
branch. -/
theorem build_of_slots {r : Register} {family : Register.Family} {n : Nat} (v w : Imm)
    (ht : t.slots = [.num, .src, .num]) (hr : r.IsNth family n) :
    Instruction.build ⟨t, [.immediate v, .register r.id, .immediate w], address, mode⟩ true =
      .ok { (⟨t, [.immediate v, .register r.id, .immediate w], address, mode⟩ : Encoded) with
        report := some (default : Report) } := by
  have hScreen : t.screen [.immediate v, .register r.id, .immediate w] = .ok () := by
    rw [Template.screen, ht]
    simp [screen, firstMisfit?, misfit?, SlotTable.describe, Slot.num, Slot.src, hr.known]
  rw [Instruction.build, hScreen]
  rfl

/-- The report of a branch on a predicate. -/
theorem fill_predicated (ht : t.Predicated) (hTable : t ∈ templates) (hBo : bo < 32)
    (hField : field < 8) (hBit : bit < 4) :
    let condition := Condition.decode bo (4 * field + bit)
    ∃ fresh effects, Effects.ofTemplate t = .ok fresh ∧
      fresh.settle t (some { condition with hint := .ofBits bo }) = .ok effects ∧
      (Report.fill ⟨t, predicateFields bo field bit target, address, mode⟩).result = .ok {
        operands := Cursor.empty.extend
          [⟨.register (.conditionField field), .reads⟩,
            .ofImmediate (t.target address mode target)]
        condition := some { condition with hint := .ofBits bo }
        effects } := by
  let e : Encoded := ⟨t, predicateFields bo field bit target, address, mode⟩
  obtain ⟨c, fresh, effects, hCondition, hFresh, hSettle, hFill⟩ :=
    Report.fill_of_wellFormed (e := e) (wellFormed_of_mem_templates hTable)
  rw [Condition.ofTemplate_of_none ht.condition] at hCondition
  cases hCondition
  have hAfter : conditionAfter e none e.opcode.sites = _ :=
    conditionAfter_predicated ht hBo hField hBit
  have hOperands : e.opcode.sites.flatMap (Site.completed e) = _ := completed_predicated ht hField
  rw [hAfter] at hSettle
  rw [hAfter, hOperands] at hFill
  exact ⟨fresh, effects, hFresh, hSettle, hFill⟩

/-- The report of the same branch spelled out. -/
theorem fill_spelledOut (ht : t.Predicated) (name mnemonic : String)
    (hTable : t.spelledOut name mnemonic ∈ templates) (hBo : bo < 32) (hField : field < 8)
    (hBit : bit < 4) :
    let condition := Condition.decode bo (4 * field + bit)
    ∃ fresh effects, Effects.ofTemplate t = .ok fresh ∧
      fresh.settle t (some condition) = .ok effects ∧
      (Report.fill ⟨t.spelledOut name mnemonic, spelledFields bo field bit target, address,
        mode⟩).result = .ok {
          operands := Cursor.empty.extend
            [.ofImmediate (.ofNat 64 bo), ⟨.register (.bitOf field bit), .reads⟩,
              .ofImmediate (t.target address mode target)]
          condition := some condition
          effects } := by
  let e : Encoded :=
    ⟨t.spelledOut name mnemonic, spelledFields bo field bit target, address, mode⟩
  obtain ⟨c, fresh, effects, hCondition, hFresh, hSettle, hFill⟩ :=
    Report.fill_of_wellFormed (e := e) (wellFormed_of_mem_templates hTable)
  rw [ofTemplate_spelledOut name mnemonic hBo hField hBit] at hCondition
  cases hCondition
  have hOperands : e.opcode.sites.flatMap (Site.completed e) = _ :=
    completed_spelledOut ht name mnemonic hField hBit
  rw [hOperands] at hFill
  -- No site of this spelling changes the condition.
  exact ⟨fresh, effects, hFresh, hSettle, hFill⟩

end Reports

/-- Both spellings of a conditional branch are accepted and filled.  The conditions are the
same but for the hint: the branch on a predicate has the hint of the low two bits of `bo`,
the one spelled out that of its prediction bits, and they are the same always if the
condition register alone is tested, and otherwise just for some `bo`.  The effects are the
same, and so is the target. -/
theorem fill_spellings {names : String × String} (hNames : names ∈ spellings)
    {bo field bit : Nat} (hBo : bo < 32) (hField : field < 8) (hBit : bit < 4) (target : Imm)
    (address : BitVec 64) (mode : Mode) :
    ∃ t u, Template.named? names.1 = some t ∧ Template.named? names.2 = some u ∧
      let e : Encoded := ⟨t, predicateFields bo field bit target, address, mode⟩
      let e' : Encoded := ⟨u, spelledFields bo field bit target, address, mode⟩
      let condition := Condition.decode bo (4 * field + bit)
      Instruction.build e true = .ok { e with report := some (default : Report) } ∧
      Instruction.build e' true = .ok { e' with report := some (default : Report) } ∧
      (∃ effects shown,
        (Report.fill e).result = .ok {
          operands := Cursor.empty.extend [⟨.register (.conditionField field), .reads⟩,
            .ofImmediate shown]
          condition := some { condition with hint := .ofBits bo }
          effects } ∧
        (Report.fill e').result = .ok {
          operands := Cursor.empty.extend [.ofImmediate (.ofNat 64 bo),
            ⟨.register (.bitOf field bit), .reads⟩, .ofImmediate shown]
          condition := some condition
          effects }) ∧
      (Hint.ofBits bo = condition.hint ↔
        (bo / 16 % 2 = 0 ∧ bo / 4 % 2 = 1) ∨
        (bo / 16 % 2 = 1 ∧ bo / 4 % 2 = 0 ∧ bo / 2 % 2 = bo / 8 % 2) ∨
        (bo / 16 % 2 = bo / 4 % 2 ∧ bo / 2 % 2 = 0)) := by
  obtain ⟨t, mnemonic, hFirst, hSecond, ht⟩ := spelledOut_of_mem_spellings hNames
  refine ⟨t, t.spelledOut names.2 mnemonic, hFirst, hSecond, ?_⟩
  intro e e' condition
  refine ⟨build_of_slots _ _ ht.slots (Register.conditionField_isNth hField),
    build_of_slots _ _ ht.slots (Register.bitOf_isNth hField hBit), ?_,
    Hint.ofBits_eq_predictionBits_iff hBo⟩
  have hTable : ∀ {name : String} {t : Template}, Template.named? name = some t →
      t ∈ templates := fun h => List.mem_of_find?_eq_some h
  obtain ⟨fresh, effects, hFresh, hSettle, hFill⟩ :=
    fill_predicated ht (hTable hFirst) hBo hField hBit
  obtain ⟨fresh', effects', hFresh', hSettle', hFill'⟩ :=
    fill_spelledOut ht names.2 mnemonic (hTable hSecond) hBo hField hBit
  cases hFresh.symm.trans hFresh'
  -- Settling asks a condition only whether it counts down, and a hint does not change that.
  have hSame : fresh.settle t (some { condition with hint := .ofBits bo }) =
      fresh.settle t (some condition) := rfl
  cases (hSettle.symm.trans hSame).trans hSettle'
  exact ⟨effects, _, hFill, hFill'⟩

/-- A branch while counting, which is predicted to be taken: its prediction bits stand around
the bit for zero.  In the spelling with a predicate the prediction is lost. -/
theorem fill_spellings_countDown :
    ∃ t u, Template.named? "BCC" = some t ∧ Template.named? "gBC" = some u ∧
      ∃ report spelled : Report,
        (Report.fill ⟨t, predicateFields 25 0 0 4, 0, {}⟩).result = .ok report ∧
        (Report.fill ⟨u, spelledFields 25 0 0 4, 0, {}⟩).result = .ok spelled ∧
        report.condition.map Condition.hint = some .none ∧
        spelled.condition.map Condition.hint = some .likely := by
  exact ⟨_, _, rfl, rfl, _, _, rfl, rfl, rfl, rfl⟩

/-- The spellings of a branch on a condition bit alone that is predicted not to be taken. -/
theorem fill_spellings_unlikely :
    ("BCC", "gBC") ∈ spellings ∧ 14 < 32 ∧ 3 < 8 ∧ 2 < 4 ∧
      ∃ t u, Template.named? "BCC" = some t ∧ Template.named? "gBC" = some u ∧
        ∃ report spelled : Report,
          (Report.fill ⟨t, predicateFields 14 3 2 64, 0x1000, {}⟩).result = .ok report ∧
          (Report.fill ⟨u, spelledFields 14 3 2 64, 0x1000, {}⟩).result = .ok spelled ∧
          report.condition = spelled.condition ∧ report.effects = spelled.effects := by
  have hNames : ("BCC", "gBC") ∈ spellings := by decide
  obtain ⟨t, u, hFirst, hSecond, _, _, ⟨effects, shown, hFill, hFill'⟩, hHint⟩ :=
    fill_spellings hNames (show 14 < 32 by decide) (show 3 < 8 by decide) (show 2 < 4 by decide)
      64 0x1000 {}
  refine ⟨hNames, by decide, by decide, by decide, t, u, hFirst, hSecond, _, _, hFill, hFill', ?_,
    rfl⟩
  rw [hHint.mpr (.inl ⟨by decide, by decide⟩)]

end OperandReport.Power
