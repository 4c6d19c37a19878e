import OperandReport.Proofs.Arm.Agreement
import OperandReport.Proofs.Arm.Implicit
import OperandReport.Proofs.Relocation

/-!
# Where an instruction stands

Two things that an instruction comes with say nothing about its fields: the address it was
found at, and the mode.  Two flags of the mode are read by no site.  The address is read
in one place only: a relative branch shows the target that its offset stands for, which is
the offset added to the program counter, modulo the size of a word.

For the targets, the bit operations are first turned into arithmetic (`branchTarget_eq`).
What the rest of a report does not know of the address is then said in two ways.  If two
addresses give the same targets, or no target is shown, then filling ends the same way;
this is `Report.fill_congr`.  If the targets differ, the sites of a branch complete the
same operands but for the one that shows the target (`completed_relocated`), and the
effects are settled in step (`Report.visitAll_effects`).

## Main results

* `branchTarget_eq`: the target of an offset, as a number.
* `Report.fill_branch`: the report of a relative branch, at any address.
* `fill_relocated`: what filling makes of the address and of the mode.
-/

namespace OperandReport.Arm

/-! ## Targets -/

/-- The program counter of an instruction.  It runs eight bytes ahead, or four in Thumb
code, where some branches count from a word boundary. -/
def programCounter (e : Encoded) : Nat :=
  let address := e.address.toNat % 0x100000000
  if e.mode.thumb then
    if e.opcode.fromAlignedPc then (address + 4) / 4 * 4 else address + 4
  else address + 8

/-- The target of an offset from the program counter, modulo the size of a word. -/
def relativeTarget (e : Encoded) (offset : Imm) : Imm :=
  BitVec.ofInt 64 ((programCounter e + offset.toInt) % 0x100000000)

/-- Clearing the low two bits of a word rounds it down to a multiple of four. -/
theorem toNat_clearLowTwo (w : Word) : (w &&& ~~~3#32).toNat = w.toNat / 4 * 4 := by
  have hShift : w &&& ~~~3#32 = (w >>> 2) <<< 2 := by
    refine BitVec.eq_of_getLsbD_eq fun i hi => ?_
    have hThree : (3#32).getLsbD i = decide (i < 2) := by
      revert i
      decide
    rw [BitVec.getLsbD_and, BitVec.getLsbD_not, hThree, BitVec.getLsbD_shiftLeft,
      BitVec.getLsbD_ushiftRight]
    by_cases hLow : i < 2
    · simp [hLow]
    · have hSame : 2 + (i - 2) = i := by omega
      simp [hLow, hSame, hi]
  have hBound := w.isLt
  rw [hShift, BitVec.toNat_shiftLeft, BitVec.toNat_ushiftRight, Nat.shiftLeft_eq,
    Nat.shiftRight_eq_div_pow]
  omega

/-- An offset is added to a word modulo the size of a word. -/
private theorem setWidth_add_word {pc : Word} {n : Nat} (hPc : pc.toNat = n % 0x100000000)
    (offset : Imm) :
    (pc + offset.word).setWidth 64 = BitVec.ofInt 64 ((n + offset.toInt) % 0x100000000) := by
  have hOffset := offset.isLt
  have hSign := BitVec.toInt_eq_toNat_cond offset
  refine BitVec.eq_of_toNat_eq ?_
  simp only [BitVec.toNat_setWidth, BitVec.toNat_add, Imm.word, hPc, BitVec.toNat_ofInt]
  split at hSign <;> omega

/-- The target of an offset, as a number. -/
theorem branchTarget_eq (e : Encoded) (offset : Imm) :
    branchTarget e offset = relativeTarget e offset := by
  have hAddress : (e.address.setWidth 32).toNat = e.address.toNat % 0x100000000 :=
    BitVec.toNat_setWidth 32 e.address
  have hFour : (4 : Word).toNat = 4 := rfl
  unfold branchTarget relativeTarget
  refine setWidth_add_word ?_ offset
  unfold programCounter
  cases e.mode.thumb with
  | false => simp [hAddress]
  | true =>
      cases e.opcode.fromAlignedPc with
      | false => simp [hAddress]
      | true =>
          simp only [if_true, toNat_clearLowTwo, BitVec.toNat_add, hAddress, hFour]
          omega

/-- Addresses that are the same modulo the size of a word give the same targets. -/
theorem branchTarget_of_mod_eq {e : Encoded} {address : BitVec 64}
    (h : address.toNat % 0x100000000 = e.address.toNat % 0x100000000) (offset : Imm) :
    branchTarget { e with address } offset = branchTarget e offset := by
  simp only [branchTarget_eq, relativeTarget, programCounter, h]

/-! ## Sites of a branch -/

namespace Site

/-- The site has an effect or shows a plain field; a relative branch has no others. -/
def isBranchPart : Site → Bool
  | effect .. | operand .plain _ => true
  | _ => false

/-- The site shows a plain field whose slot is not kept for a register. -/
def mayShowOffset (t : Template) : Site → Bool
  | operand .plain i => (t.slots.describe i).kind != .register
  | _ => false

/-- The immediate that the site shows as a plain field. -/
def offset? (e : Encoded) : Site → Option Imm
  | operand .plain i =>
    match e.field i with
    | .immediate v => some v
    | _ => none
  | _ => none

variable {e : Encoded} {site : Site}

/-- An offset is the immediate of a plain field. -/
theorem offset?_eq_some_iff {v : Imm} :
    site.offset? e = some v ↔ ∃ i, site = .operand .plain i ∧ e.field i = .immediate v := by
  cases site with
  | effect form i => simp [offset?]
  | operand form i =>
      cases form with
      | plain => cases hField : e.field i <;> simp [offset?, hField]
      | _ => simp [offset?]

/-- In a screened instruction an offset stands where no register is called for. -/
theorem mayShowOffset_of_build {detail : Bool} {insn : Instruction} {v : Imm}
    (hBuild : Instruction.build e detail = .ok insn) (h : site.offset? e = some v) :
    site.mayShowOffset e.opcode = true := by
  obtain ⟨i, rfl, hField⟩ := offset?_eq_some_iff.mp h
  have hImmediate : e.isImmediate i = true := by
    rw [Encoded.isImmediate, hField]
  simp only [mayShowOffset, bne_iff_ne, ne_eq]
  intro hKind
  rw [isImmediate_of_build hBuild hKind] at hImmediate
  contradiction

/-- A part of a branch without an offset completes the same at every address. -/
theorem completed_of_offset?_none (hPart : site.isBranchPart = true)
    (hOffset : site.offset? e = none) (address : BitVec 64) :
    site.completed { e with address } = site.completed e := by
  cases site with
  | effect form i => rfl
  | operand form i =>
      cases form with
      | plain =>
          have hField : Encoded.field { e with address } i = e.field i := rfl
          refine congrArg Edit.completedBy ?_
          show plainEdits { e with address } i = plainEdits e i
          unfold plainEdits
          rw [hField]
          split
          · rfl
          · rfl
          · next v hImmediate =>
            rw [offset?_eq_some_iff.mpr ⟨i, rfl, hImmediate⟩] at hOffset
            contradiction
      | _ => contradiction

/-- A site with an offset shows the target of the offset, in a relative branch. -/
theorem completed_of_offset?_some {v : Imm} (hRelative : e.opcode.relative = true)
    (hOffset : site.offset? e = some v) :
    site.completed e = [.ofImmediate (relativeTarget e v) false] := by
  obtain ⟨i, rfl, hField⟩ := offset?_eq_some_iff.mp hOffset
  show Edit.completedBy (plainEdits e i) = _
  unfold plainEdits
  rw [hField, ← branchTarget_eq]
  simp [hRelative, Edit.completed]

/-- A part of a branch does not look back. -/
theorem looksBack_of_isBranchPart (hPart : site.isBranchPart = true) : site.looksBack = false := by
  cases site with
  | effect form i => rfl
  | operand form i => cases form <;> first | contradiction | rfl

end Site

/-- The offset of a branch. -/
def branchOffset? (e : Encoded) : Option Imm := e.opcode.sites.findSome? (Site.offset? e)

/-- The operand that shows the target of a branch, if there is an offset. -/
def targetOperands (e : Encoded) (offset? : Option Imm) : List Operand :=
  offset?.toList.map fun v => .ofImmediate (relativeTarget e v) false

/-- Where at most one site has an offset, the sites of a relative branch complete the same
operands at every address, but for the one that shows the target. -/
theorem completed_relocated {e : Encoded} {sites : List Site}
    (hRelative : e.opcode.relative = true)
    (hParts : ∀ site ∈ sites, site.isBranchPart = true)
    (hAlone : Alone (Site.offset? e) sites) :
    ∃ before after : List Operand, ∀ address : BitVec 64,
      sites.flatMap (Site.completed { e with address }) = before ++
        targetOperands { e with address } (sites.findSome? (Site.offset? e)) ++ after := by
  have hTargets : ∀ address : BitVec 64,
      targetOperands { e with address } (sites.findSome? (Site.offset? e)) =
        (sites.findSome? (Site.offset? e)).toList.flatMap fun v =>
          [.ofImmediate (relativeTarget { e with address } v) false] := fun _ => List.map_eq_flatMap
  simp only [hTargets]
  refine flatMap_relocated e.address (fun site hSite hNone address => ?_)
    (fun site _ v hOffset address => ?_) hAlone
  · exact Site.completed_of_offset?_none (hParts site hSite) hNone address
  · exact Site.completed_of_offset?_some hRelative hOffset

/-! ## Runs -/

/-- Settling asks of the operands only whether one is a flag register that is written. -/
theorem Effects.settle_congr {t : Template} {operands others : List Operand} (fx : Effects)
    (h : operands.any Operand.writesFlags = others.any Operand.writesFlags) :
    fx.settle t operands = fx.settle t others := by
  unfold settle
  rw [h]

namespace Report

variable {e : Encoded} {address : BitVec 64}

/-- Visits at two addresses change the effects in step. -/
theorem visit_effects {site : Site} {report moved after movedAfter : Report}
    (hSame : moved.effects = report.effects) (h : (report.visit e site).result = .ok after)
    (hMoved : (moved.visit { e with address } site).result = .ok movedAfter) :
    movedAfter.effects = after.effects := by
  cases site with
  | operand form i => rw [visit_operand hMoved, visit_operand h, hSame]
  | effect form i =>
      obtain ⟨effects, hApply, rfl⟩ := map_eq_ok_iff.mp h
      obtain ⟨movedEffects, hMovedApply, rfl⟩ := map_eq_ok_iff.mp hMoved
      -- The two instructions may differ in their targets, but an effect form sees none.
      have hEach : moved.effects.apply { e with address } i form =
          report.effects.apply e i form := by
        rw [hSame]
        cases form <;> rfl
      rw [hEach, hApply] at hMovedApply
      cases hMovedApply
      rfl

/-- So do runs. -/
theorem visitAll_effects {sites : List Site} {report moved after movedAfter : Report}
    (hSame : moved.effects = report.effects)
    (h : (report.visitAll e sites).result = .ok after)
    (hMoved : (moved.visitAll { e with address } sites).result = .ok movedAfter) :
    movedAfter.effects = after.effects := by
  induction sites generalizing report moved with
  | nil =>
      cases h
      cases hMoved
      exact hSame
  | cons site rest ih =>
      obtain ⟨next, hNext, hRest⟩ := Outcome.result_bind_eq_ok_iff.mp h
      obtain ⟨movedNext, hMovedNext, hMovedRest⟩ := Outcome.result_bind_eq_ok_iff.mp hMoved
      exact ih (visit_effects hSame hNext hMovedNext) hRest hMovedRest

end Report

/-! ## Filling -/

/-- The parts of a relative branch in the table: at most one of them may show an offset. -/
theorem branchParts_of_mem_templates {t : Template} (ht : t ∈ templates)
    (hRelative : t.relative = true) :
    (∀ site ∈ t.sites, site.isBranchPart = true) ∧
      t.sites.Pairwise fun site other =>
        (site.mayShowOffset t && other.mayShowOffset t) = false := by
  have hAll : ∀ t ∈ templates, t.relative = true →
      (∀ site ∈ t.sites, site.isBranchPart = true) ∧
        t.sites.Pairwise fun site other =>
          (site.mayShowOffset t && other.mayShowOffset t) = false := by
    decide +kernel
  exact hAll t ht hRelative

/-- At most one site of a screened branch has an offset. -/
theorem offset?_alone {e : Encoded} {detail : Bool} {insn : Instruction}
    (hTable : e.opcode ∈ templates) (hRelative : e.opcode.relative = true)
    (hBuild : Instruction.build e detail = .ok insn) :
    Alone (Site.offset? e) e.opcode.sites := by
  refine (branchParts_of_mem_templates hTable hRelative).2.imp ?_
  intro site other hNotBoth
  cases hSite : site.offset? e with
  | none => exact .inl rfl
  | some v =>
      cases hOther : other.offset? e with
      | none => exact .inr rfl
      | some w =>
          rw [Site.mayShowOffset_of_build hBuild hSite,
            Site.mayShowOffset_of_build hBuild hOther] at hNotBoth
          contradiction

/-- The offset of a screened branch is the immediate that stands at a plain field. -/
theorem branchOffset?_eq_some_iff {e : Encoded} {detail : Bool} {insn : Instruction} {v : Imm}
    (hTable : e.opcode ∈ templates) (hRelative : e.opcode.relative = true)
    (hBuild : Instruction.build e detail = .ok insn) :
    branchOffset? e = some v ↔
      ∃ i, .operand .plain i ∈ e.opcode.sites ∧ e.field i = .immediate v := by
  unfold branchOffset?
  rw [findSome?_eq_some_iff_of_alone (offset?_alone hTable hRelative hBuild)]
  constructor
  · rintro ⟨site, hSite, hOffset⟩
    obtain ⟨i, rfl, hField⟩ := Site.offset?_eq_some_iff.mp hOffset
    exact ⟨i, hSite, hField⟩
  · rintro ⟨i, hSite, hField⟩
    exact ⟨.operand .plain i, hSite, Site.offset?_eq_some_iff.mpr ⟨i, rfl, hField⟩⟩

/-- An operand that shows a target is no flag register. -/
theorem any_writesFlags_targetOperands (e : Encoded) (offset? : Option Imm) :
    (targetOperands e offset?).any Operand.writesFlags = false := by
  cases offset? <;> rfl

namespace Report

/-- An instruction whose sites do not look back is filled with what they complete. -/
theorem fill_of_additive {e : Encoded} (hTable : e.opcode.WellPlaced)
    (hTakes : e.opcode.takes e.fields.length = true)
    (hSites : ∀ site ∈ e.opcode.sites, site.looksBack = false) :
    ∃ report, (fill e).result = .ok report ∧
      report.operands = Cursor.empty.extend (e.opcode.sites.flatMap (Site.completed e)) := by
  rcases fill_progress hTable hTakes with ⟨⟨before, site, after, hSplit, hAnnotates, _⟩, _⟩ |
    ⟨_, report, hFill, _⟩
  · have hMem : site ∈ e.opcode.sites := by simp [hSplit]
    have hLooksBack := Site.looksBack_of_annotates hAnnotates
    rw [hSites site hMem] at hLooksBack
    contradiction
  · obtain ⟨effects, visited, _, hVisited, _, hOperands⟩ := fill_eq_ok hFill
    refine ⟨report, hFill, ?_⟩
    rw [hOperands, visitAll_of_additive Cursor.atRest_empty hSites hVisited]

/-- So is an accepted one. -/
theorem take_fill_of_additive {e : Encoded} {insn : Instruction} (hTable : e.opcode ∈ templates)
    (hBuild : Instruction.build e true = .ok insn)
    (hSites : ∀ site ∈ e.opcode.sites, site.looksBack = false) :
    ∃ report, (insn.take .fill).result = .ok { e with report := some report } ∧
      (fill e).result = .ok report ∧
      report.operands.toList = e.opcode.sites.flatMap (Site.completed e) := by
  obtain ⟨hTakes, rfl⟩ := takes_of_build hBuild
  obtain ⟨report, hFill, hOperands⟩ :=
    fill_of_additive (wellPlaced_of_mem_templates hTable) hTakes hSites
  have hTake : (Instruction.take (.ofEncoded e true) .fill).result =
      (fill e).result.map fun report => { e with report := some report } := rfl
  refine ⟨report, ?_, hFill, ?_⟩
  · rw [hTake, hFill]
    rfl
  · rw [hOperands, Cursor.toList_extend]
    rfl

/-- At two addresses an instruction has the same effects, if its operands agree on whether
a flag register is written. -/
theorem fill_effects {e : Encoded} {address : BitVec 64} {report moved : Report}
    (h : (fill e).result = .ok report) (hMoved : (fill { e with address }).result = .ok moved)
    (hFlags : moved.operands.toList.any Operand.writesFlags =
      report.operands.toList.any Operand.writesFlags) : moved.effects = report.effects := by
  obtain ⟨effects, visited, hEffects, hVisited, hSettle, hOperands⟩ := fill_eq_ok h
  obtain ⟨movedEffects, movedVisited, hMovedEffects, hMovedVisited, hMovedSettle,
    hMovedOperands⟩ := fill_eq_ok hMoved
  cases hMovedEffects.symm.trans hEffects
  have hStep : movedVisited.effects = visited.effects := visitAll_effects rfl hVisited hMovedVisited
  rw [hOperands, hMovedOperands] at hFlags
  rw [hStep, Effects.settle_congr _ hFlags, hSettle] at hMovedSettle
  exact (Except.ok.inj hMovedSettle).symm

/-- A screened branch is filled at every address, its operands are those that its sites
complete, and its effects are the same everywhere. -/
theorem fill_branch {e : Encoded} {detail : Bool} {insn : Instruction}
    (hTable : e.opcode ∈ templates) (hRelative : e.opcode.relative = true)
    (hBuild : Instruction.build e detail = .ok insn) :
    ∃ before after : List Operand, ∃ effects : Effects, ∀ address : BitVec 64,
      (fill { e with address }).result = .ok {
        operands := Cursor.empty.extend
          (before ++ targetOperands { e with address } (branchOffset? e) ++ after)
        effects } := by
  have hPlaced := wellPlaced_of_mem_templates hTable
  have hTakes := (takes_of_build hBuild).1
  obtain ⟨hParts, _⟩ := branchParts_of_mem_templates hTable hRelative
  have hAdditive : ∀ site ∈ e.opcode.sites, site.looksBack = false := fun site hSite =>
    Site.looksBack_of_isBranchPart (hParts site hSite)
  obtain ⟨before, after, hCompleted⟩ :=
    completed_relocated hRelative hParts (offset?_alone hTable hRelative hBuild)
  have hFill : ∀ address : BitVec 64, ∃ report, (fill { e with address }).result = .ok report ∧
      report.operands = Cursor.empty.extend
        (before ++ targetOperands { e with address } (branchOffset? e) ++ after) := by
    intro address
    obtain ⟨report, hReport, hOperands⟩ :=
      fill_of_additive (e := { e with address }) hPlaced hTakes hAdditive
    exact ⟨report, hReport, hOperands.trans (congrArg _ (hCompleted address))⟩
  obtain ⟨report, hReport, hOperands⟩ := hFill e.address
  refine ⟨before, after, report.effects, fun address => ?_⟩
  obtain ⟨moved, hMoved, hMovedOperands⟩ := hFill address
  have hEffects : moved.effects = report.effects := by
    refine fill_effects hReport hMoved ?_
    simp [hOperands, hMovedOperands, any_writesFlags_targetOperands]
  rw [hMoved, ← hMovedOperands, ← hEffects]

end Report

/-- Two flags of the mode make no difference to filling.  The address makes none unless the
instruction is a relative branch, and then only modulo the size of a word.  A screened
relative branch is filled at every address, and the report depends on the address only in
the operand that shows the target: the offset, if there is one, added to the program
counter. -/
theorem fill_relocated (e : Encoded) :
    (∀ bigEndian wide,
      Report.fill { e with mode := { e.mode with bigEndian, wide } } = Report.fill e) ∧
    (e.opcode.relative = false → ∀ address, Report.fill { e with address } = Report.fill e) ∧
    (∀ address : BitVec 64, address.toNat % 0x100000000 = e.address.toNat % 0x100000000 →
      Report.fill { e with address } = Report.fill e) ∧
    (∀ insn, e.opcode ∈ templates → e.opcode.relative = true →
      Instruction.build e true = .ok insn →
      (∀ v, branchOffset? e = some v ↔
        ∃ i, .operand .plain i ∈ e.opcode.sites ∧ e.field i = .immediate v) ∧
      ∃ before after : List Operand, ∃ effects : Effects, ∀ address : BitVec 64,
        (Report.fill { e with address }).result = .ok {
          operands := Cursor.empty.extend
            (before ++ targetOperands { e with address } (branchOffset? e) ++ after)
          effects }) := by
  have hFields : ∀ e' : Encoded, e'.fields = e.fields →
      ∀ site ∈ e'.opcode.sites, site.Agrees e' e := fun e' hSame site _ =>
    Site.agrees_of_fields hSame site
  refine ⟨?_, ?_, ?_, ?_⟩
  · intro bigEndian wide
    exact Report.fill_congr ⟨rfl, rfl, rfl, fun _ _ => rfl⟩ (hFields _ rfl)
  · intro hNot address
    refine Report.fill_congr ⟨rfl, rfl, rfl, fun hRelative => ?_⟩ (hFields _ rfl)
    rw [hNot] at hRelative
    contradiction
  · intro address hSame
    exact Report.fill_congr ⟨rfl, rfl, rfl, fun _ => branchTarget_of_mod_eq hSame⟩ (hFields _ rfl)
  · intro insn hTable hRelative hBuild
    exact ⟨fun v => branchOffset?_eq_some_iff hTable hRelative hBuild,
      Report.fill_branch hTable hRelative hBuild⟩

/-- A call from Thumb code that is not at a word boundary, eight bytes back. -/
def exchangeCall : Encoded where
  opcode := (templates.find? (·.name == "tBLXi")).get (by decide +kernel)
  fields := [.immediate 14, .register 0, .immediate (-8)]
  address := 0x1002
  mode := { thumb := true }

/-- The call shows the same target wherever its address is the same modulo the size of a
word; near zero the target wraps around.  An addition shows no target. -/
theorem fill_relocated_exchangeCall :
    exchangeCall.opcode ∈ templates ∧
      Instruction.build exchangeCall true =
        .ok { exchangeCall with report := some (default : Report) } ∧
      Report.fill { exchangeCall with mode := { thumb := true, bigEndian := true, wide := true } } =
        Report.fill exchangeCall ∧
      Report.fill { exchangeCall with address := 0x100001002 } = Report.fill exchangeCall ∧
      (∃ report, (Report.fill { exchangeCall with address := 2 }).result = .ok report ∧
        .ofImmediate 0xfffffffc false ∈ report.operands.toList) ∧
      Report.fill { addAndSetFlags with address := 2 } = Report.fill addAndSetFlags := by
  have hTable : exchangeCall.opcode ∈ templates := by
    dsimp only [exchangeCall]
    exact List.get_find?_mem _
  have hBuild : Instruction.build exchangeCall true =
      .ok { exchangeCall with report := some (default : Report) } := rfl
  obtain ⟨hMode, _, hAddress, hBranch⟩ := fill_relocated exchangeCall
  obtain ⟨hOffset, before, after, effects, hFill⟩ := hBranch _ hTable rfl hBuild
  have hEight : branchOffset? exchangeCall = some (-8) :=
    (hOffset (-8)).mpr ⟨2, by decide, rfl⟩
  have hTarget : targetOperands { exchangeCall with address := 2 } (some (-8)) =
      [.ofImmediate 0xfffffffc false] := by decide
  refine ⟨hTable, hBuild, hMode true true, hAddress _ (by decide), ⟨_, hFill 2, ?_⟩,
    (fill_relocated addAndSetFlags).2.1 rfl 2⟩
  rw [hEight, hTarget]
  simp

end OperandReport.Arm
