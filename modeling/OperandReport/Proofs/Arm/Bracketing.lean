import OperandReport.Proofs.Arm.Fill

/-!
# Bracketing of memory operands

A memory site opens a memory operand and closes it again, or it reads its first field
on its own: some forms always bracket, the others do so where that field is a
register.  Post-indexing closes the bracket early and adds its offset behind it.

In a filled report the brackets are balanced.  Its memory operands are those of the
bracketing sites, in order, each with the access that the table names for the first
slot; and a memory site without a bracket leaves one immediate behind, or nothing.

## Main results

* `memoryAccesses_completed`: the memory operands that a list of sites completes.
* `take_fill_brackets`: the memory operands of a filled report.
-/

namespace OperandReport.Arm

/-- The accesses of the memory operands, in order. -/
def memoryAccesses (operands : List Operand) : List Access :=
  (operands.filter Operand.isMemory).map Operand.access

/-- Later annotations change no access of a memory operand. -/
theorem memoryAccesses_bare (operands : List Operand) :
    memoryAccesses (operands.map Operand.bare) = memoryAccesses operands := by
  unfold memoryAccesses
  rw [List.filter_map, List.map_map]
  rfl

theorem OperandForm.not_brackets_of_looksBack {e : Encoded} {i : Nat} {form : OperandForm}
    (h : form.looksBack = true) : form.brackets e i = false := by
  cases form <;> first | rfl | contradiction

/-- One site completes a memory operand just when it brackets. -/
theorem memoryAccesses_site (e : Encoded) (site : Site) :
    memoryAccesses (site.completed e) =
      if site.brackets e then [nominalAccessAt e site.slot] else [] := by
  cases site with
  | effect form i => rfl
  | operand form i =>
      cases hForm : form.looksBack with
      | false => exact (form.contributes e i hForm).memory
      | true =>
          have hNone : (Site.operand form i).completed e = [] :=
            form.completedBy_of_looksBack e i hForm
          have hNot : (Site.operand form i).brackets e = false :=
            OperandForm.not_brackets_of_looksBack hForm
          rw [hNone, hNot]
          rfl

/-- The memory operands that sites complete are those of the bracketing ones. -/
theorem memoryAccesses_completed (e : Encoded) (sites : List Site) :
    memoryAccesses (sites.flatMap (Site.completed e)) =
      (sites.filter (Site.brackets e)).map fun site => nominalAccessAt e site.slot := by
  induction sites with
  | nil => rfl
  | cons site rest ih =>
      have hSplit : memoryAccesses ((site :: rest).flatMap (Site.completed e)) =
          memoryAccesses (site.completed e) ++
            memoryAccesses (rest.flatMap (Site.completed e)) := by
        simp [memoryAccesses]
      rw [hSplit, ih, memoryAccesses_site]
      cases hBrackets : site.brackets e with
      | true => simp [hBrackets]
      | false => simp [hBrackets]

/-- Without a bracket a memory form reads its first field on its own. -/
theorem OperandForm.edits_of_not_brackets {e : Encoded} {i : Nat} {form : OperandForm}
    (hMemory : form.isMemory = true) (hNot : form.brackets e i = false) :
    form.edits e i = plainEdits e i := by
  have hForm : form.alwaysBrackets = false ∧ e.isRegister i = false := by
    simpa [brackets, hMemory] using hNot
  obtain ⟨hAlways, hRegister⟩ := hForm
  have hNoBase : ¬ e.isRegister i = true := by simp [hRegister]
  cases form with
  | scaledOffset | stackOffset | indexed | mode2 | mode3 | mode5 | mode5Half | signedOffset
  | shortOffset | shortWordOffset => exact if_neg hNoBase
  | mode6 | baseOnly | shiftedIndex | exclusiveOffset | literal | tableByte | tableHalf
  | vectorOffsets => contradiction
  | _ => contradiction

/-- An unbracketed memory site completes one immediate where its first field is one,
and nothing where it is vacant. -/
theorem completed_of_not_brackets {e : Encoded} {site : Site} (hMemory : site.isMemory = true)
    (hNot : site.brackets e = false) :
    (e.field site.slot = .vacant → site.completed e = []) ∧
      (e.isImmediate site.slot = true →
        ∃ v, site.completed e = [Operand.ofImmediate v false]) := by
  cases site with
  | effect form i => contradiction
  | operand form i =>
      have hPlain : (Site.operand form i).completed e = Edit.completedBy (plainEdits e i) :=
        congrArg Edit.completedBy (OperandForm.edits_of_not_brackets hMemory hNot)
      rw [hPlain]
      unfold plainEdits
      constructor
      · intro hVacant
        have hField : e.field i = .vacant := hVacant
        rw [hField]
        rfl
      · intro hImmediate
        have hField : ∃ v, e.field i = .immediate v := by
          change e.isImmediate i = true at hImmediate
          unfold Encoded.isImmediate at hImmediate
          split at hImmediate
          · next v hv => exact ⟨v, hv⟩
          · contradiction
        obtain ⟨v, hv⟩ := hField
        rw [hv]
        exact ⟨_, rfl⟩

namespace Report

/-- The report after some sites, before anything is settled. -/
def upTo (e : Encoded) (sites : List Site) : Outcome Report :=
  (Outcome.ofResult (initial e)).bind (visitAll e · sites)

theorem upTo_stage {e : Encoded} {sites : List Site} {report : Report}
    (h : (upTo e sites).result = .ok report) : Stage e sites report := by
  obtain ⟨fresh, hFresh, hVisit⟩ := Outcome.result_bind_eq_ok_iff.mp h
  exact visitAll_stage (initial_stage hFresh) hVisit

/-- A run over all sites passes through each of them. -/
theorem upTo_of_append {e : Encoded} {sites more : List Site} {report : Report}
    (h : (upTo e (sites ++ more)).result = .ok report) :
    ∃ earlier, (upTo e sites).result = .ok earlier ∧
      (earlier.visitAll e more).result = .ok report := by
  obtain ⟨fresh, hFresh, hVisit⟩ := Outcome.result_bind_eq_ok_iff.mp h
  rw [visitAll_append] at hVisit
  obtain ⟨earlier, hEarlier, hMore⟩ := Outcome.result_bind_eq_ok_iff.mp hVisit
  exact ⟨earlier, Outcome.result_bind_eq_ok_iff.mpr ⟨fresh, hFresh, hEarlier⟩, hMore⟩

/-- A filled report comes from visiting all sites. -/
theorem upTo_of_fill {e : Encoded} {report : Report} (h : (fill e).result = .ok report) :
    ∃ visited, (upTo e e.opcode.sites).result = .ok visited ∧
      report.operands = visited.operands := by
  obtain ⟨fresh, hFresh, hRest⟩ := Outcome.result_bind_eq_ok_iff.mp h
  obtain ⟨visited, hVisited, hFinish⟩ := Outcome.result_bind_eq_ok_iff.mp hRest
  exact ⟨visited, Outcome.result_bind_eq_ok_iff.mpr ⟨fresh, hFresh, hVisited⟩,
    (finish_operands hFinish).1⟩

/-- What the site at a place of a finished run completed is still there, up to later
annotations. -/
theorem Stage.getElem? {e : Encoded} {before after : List Site} {site : Site}
    {report earlier : Report} {op : Operand} (hStage : Stage e (before ++ site :: after) report)
    (hEarlier : Stage e before earlier) (hSite : site.completed e = [op]) :
    ∃ found, report.operands.toList[earlier.operands.length]? = some found ∧
      found.bare = op.bare := by
  have hOperands := hStage.operands
  rw [List.flatMap_append, List.flatMap_cons, hSite] at hOperands
  have hAt := congrArg (fun ops => ops[earlier.operands.length]?) hOperands
  simp only [List.getElem?_map, hEarlier.length] at hAt
  rw [List.getElem?_append_right (Nat.le_refl _), Nat.sub_self] at hAt
  rw [hEarlier.length]
  exact Option.map_eq_some_iff.mp hAt

/-- Nothing looks back at the operands of a site that may not stand before one that does, so
they are in the filled report as the site completed them. -/
theorem mem_of_completed {e : Encoded} {report : Report} {site : Site} {op : Operand}
    (hTable : e.opcode.WellPlaced) (hSite : site ∈ e.opcode.sites)
    (hGuard : site.isGuard = false) (hOp : op ∈ site.completed e)
    (h : (fill e).result = .ok report) : op ∈ report.operands.toList := by
  obtain ⟨before, after, hSites⟩ := List.append_of_mem hSite
  obtain ⟨visited, hVisited, hOperands⟩ := upTo_of_fill h
  rw [hSites] at hVisited
  obtain ⟨earlier, hEarlier, hLater⟩ := upTo_of_append hVisited
  have hOwn : site.looksBack = false := by
    cases site with
    | effect form i => rfl
    | operand form i =>
        refine Bool.eq_false_iff.mpr fun hForm => ?_
        rw [show (Site.operand form i).completed e = [] from
          form.completedBy_of_looksBack e i hForm] at hOp
        contradiction
  have hOthers : ∀ later ∈ after, later.looksBack = false := by
    intro later hMem
    have hPairwise := (List.pairwise_append.mp (hSites ▸ hTable.guards)).2.1
    refine Bool.eq_false_iff.mpr fun hLooksBack => ?_
    rw [List.rel_of_pairwise_cons hPairwise hMem hLooksBack] at hGuard
    contradiction
  rw [hOperands, visitAll_of_additive (upTo_stage hEarlier).atRest
    (List.forall_mem_cons.mpr ⟨hOwn, hOthers⟩) hLater, Cursor.toList_extend, List.flatMap_cons]
  exact List.mem_append_right _ (List.mem_append_left _ hOp)

end Report

/-- In a filled report nothing is open, and its memory operands are those of the
bracketing sites, in order, each with the nominal access of the first slot.  A memory
site without a bracket adds one immediate where its first field is one, and nothing
where that field is vacant. -/
theorem take_fill_brackets {e : Encoded} {old : Report} {filled : Instruction}
    (h : (Instruction.take { e with report := some old } .fill).result = .ok filled) :
    ∃ report : Report, filled = { e with report := some report } ∧
      report.operands.isOpen = false ∧
      (report.operands.toList.filter Operand.isMemory).length =
        (e.opcode.sites.filter (Site.brackets e)).length ∧
      memoryAccesses report.operands.toList =
        ((e.opcode.sites.filter (Site.brackets e)).map fun site =>
          nominalAccessAt e site.slot) ∧
      ∀ before site after, e.opcode.sites = before ++ site :: after → site.isMemory = true →
        site.brackets e = false →
        ∃ earlier later : Report, (Report.upTo e before).result = .ok earlier ∧
          (Report.upTo e (before ++ [site])).result = .ok later ∧
          (e.field site.slot = .vacant →
            later.operands.length = earlier.operands.length) ∧
          (e.isImmediate site.slot = true →
            later.operands.length = earlier.operands.length + 1 ∧
            ∃ op v, report.operands.toList[earlier.operands.length]? = some op ∧
              op.value = .immediate v) := by
  obtain ⟨report, hFill, rfl⟩ := map_eq_ok_iff.mp h
  have hStage := Report.fill_stage hFill
  have hAccesses : memoryAccesses report.operands.toList =
      (e.opcode.sites.filter (Site.brackets e)).map fun site => nominalAccessAt e site.slot := by
    rw [← memoryAccesses_bare, hStage.operands, memoryAccesses_bare, memoryAccesses_completed]
  have hCount := congrArg List.length hAccesses
  rw [memoryAccesses, List.length_map, List.length_map] at hCount
  refine ⟨report, rfl, hStage.atRest.closed, hCount, hAccesses, ?_⟩
  intro before site after hSites hMemory hNot
  obtain ⟨visited, hVisited, _⟩ := Report.upTo_of_fill hFill
  rw [hSites, show before ++ site :: after = (before ++ [site]) ++ after by simp] at hVisited
  obtain ⟨later, hLater, _⟩ := Report.upTo_of_append hVisited
  obtain ⟨earlier, hEarlier, _⟩ := Report.upTo_of_append hLater
  have hEarlierStage := Report.upTo_stage hEarlier
  have hLength : later.operands.length =
      earlier.operands.length + (site.completed e).length := by
    rw [(Report.upTo_stage hLater).length, hEarlierStage.length]
    simp
  obtain ⟨hVacant, hImmediate⟩ := completed_of_not_brackets hMemory hNot
  refine ⟨earlier, later, hEarlier, hLater, ?_, ?_⟩
  · intro hField
    rw [hLength, hVacant hField]
    rfl
  · intro hField
    obtain ⟨v, hSite⟩ := hImmediate hField
    obtain ⟨op, hOp, hBare⟩ := (hSites ▸ hStage).getElem? hEarlierStage hSite
    refine ⟨by rw [hLength, hSite]; rfl, op, v, hOp, ?_⟩
    exact congrArg Operand.value hBare

/-- A post-indexed load of a halfword. -/
def loadHalfwordPost : Encoded where
  opcode := (templates.find? (·.name == "LDRH")).get (by decide +kernel)
  fields := [.register 32, .register 33, .register 0, .immediate 0x444, .immediate 14, .register 0]

/-- Post-indexing closes the bracket early: one memory operand, which is read, and the
offset behind it. -/
theorem take_fill_loadHalfwordPost :
    ∃ report : Report,
      (Instruction.take { loadHalfwordPost with report := some (default : Report) } .fill).result =
        .ok { loadHalfwordPost with report := some report } ∧
      report.operands.isOpen = false ∧ memoryAccesses report.operands.toList = [.reads] := by
  obtain ⟨report, hReport, hClosed, _, hAccesses, _⟩ := take_fill_brackets
    (show (Instruction.take { loadHalfwordPost with report := some (default : Report) }
      .fill).result = .ok _ from rfl)
  exact ⟨report, congrArg Except.ok hReport, hClosed, hAccesses⟩

end OperandReport.Arm
