import OperandReport.Proofs.Power.Agreement
import OperandReport.Proofs.Power.Fill
import OperandReport.Proofs.Relocation

/-!
# Where a PowerPC instruction stands

The address of an instruction and its mode are seen by relative branches only, and of the
mode they see one flag.  A branch field counts words; as a distance in bytes it is a signed
32-bit number (`byteDistance`).  The target is the distance added to the address, a signed
64-bit number in wide mode and an unsigned 32-bit one otherwise (`relativeTarget`).  The
machine computes it by shifts, extensions and truncations of bit vectors; that these give
the numbers is shown first.

An absolute branch shows its distance as it is, everywhere.

## Main results

* `toInt_branchOffset`, `toInt_addressIn`: distances and targets, as numbers.
* `Report.fill_branch`: the report of a relative branch, at any address and in any mode.
* `fill_from_anywhere`: what filling makes of the address and of the mode.
-/

namespace OperandReport.Power

/-! ## Targets -/

/-- The distance in bytes that a branch field stands for, a signed 32-bit number. -/
def byteDistance (v : Imm) : Int := (4 * v.toInt).bmod 0x100000000

/-- The target at a distance from an address: a signed 64-bit number in wide mode, an
unsigned 32-bit one otherwise. -/
def relativeTarget (address : BitVec 64) (mode : Mode) (v : Imm) : Int :=
  if mode.wide then (address.toNat + byteDistance v).bmod 0x10000000000000000
  else (address.toNat + byteDistance v) % 0x100000000

/-- The offset of a branch field is its distance. -/
theorem toInt_branchOffset (v : Imm) : (branchOffset v).toInt = byteDistance v := by
  have hBound := v.isLt
  have hSign := BitVec.toInt_eq_toNat_cond v
  have hShift : (v.word <<< 2).toNat = 4 * (v.toNat % 0x100000000) % 0x100000000 := by
    simp only [BitVec.toNat_shiftLeft, Imm.word, BitVec.toNat_setWidth, Nat.shiftLeft_eq]
    omega
  rw [branchOffset, BitVec.toInt_signExtend_of_le (by decide), BitVec.toInt_eq_toNat_bmod, hShift,
    byteDistance]
  simp only [Int.bmod]
  split at hSign <;> omega

/-- The offset of a branch field, as a number. -/
theorem branchOffset_eq (v : Imm) : branchOffset v = BitVec.ofInt 64 (byteDistance v) := by
  rw [← toInt_branchOffset, BitVec.ofInt_toInt]

/-- The address that a distance leads to is the target. -/
theorem toInt_addressIn (mode : Mode) (address : BitVec 64) (v : Imm) :
    (addressIn mode (address + branchOffset v)).toInt = relativeTarget address mode v := by
  have hAddress := address.isLt
  unfold addressIn relativeTarget
  cases mode.wide with
  | true =>
      have hSign := BitVec.toInt_eq_toNat_cond address
      rw [if_pos rfl, if_pos rfl, BitVec.toInt_add, toInt_branchOffset]
      simp only [Int.bmod]
      split at hSign <;> omega
  | false =>
      have hOffset : ((branchOffset v).toNat : Int) = byteDistance v % 0x10000000000000000 := by
        rw [branchOffset_eq, BitVec.toNat_ofInt]
        omega
      have hWord : ((Imm.word (address + branchOffset v)).setWidth 64).toNat =
          (address.toNat + (branchOffset v).toNat) % 0x100000000 := by
        simp only [Imm.word, BitVec.toNat_setWidth, BitVec.toNat_add]
        omega
      rw [if_neg Bool.false_ne_true, if_neg Bool.false_ne_true, BitVec.toInt_eq_toNat_cond, hWord]
      omega

theorem addressIn_eq (mode : Mode) (address : BitVec 64) (v : Imm) :
    addressIn mode (address + branchOffset v) =
      BitVec.ofInt 64 (relativeTarget address mode v) := by
  rw [← toInt_addressIn, BitVec.ofInt_toInt]

/-! ## Forms -/

/-- The form shows a branch target that is relative to the address. -/
def OperandForm.isRelative : OperandForm → Bool
  | .branch | .annotatedCall => true
  | _ => false

section Forms

variable {e : Encoded} {i : Nat} {address : BitVec 64} {mode : Mode}

/-- A form sees the address and the mode only where it shows a target, and then only by way
of the target. -/
theorem OperandForm.edits_relocated {form : OperandForm}
    (h : form.isRelative = true → e.isImmediate i = true → ∀ offset,
      addressIn mode (address + offset) = addressIn e.mode (e.address + offset)) :
    form.edits { e with address, mode } i = form.edits e i := by
  have hBranch : (e.isImmediate i = true → ∀ offset,
      addressIn mode (address + offset) = addressIn e.mode (e.address + offset)) →
      branchEdits { e with address, mode } i = branchEdits e i := by
    intro hSame
    have hField : Encoded.isImmediate { e with address, mode } i = e.isImmediate i := rfl
    unfold branchEdits
    rw [hField]
    cases hImmediate : e.isImmediate i with
    | false => rfl
    | true =>
        have hTarget := hSame hImmediate (branchOffset (e.immediate i))
        simp only [if_true, ← hTarget]
        rfl
  cases form with
  | branch | annotatedCall => exact hBranch (h rfl)
  | _ => rfl

/-- A relative branch on an immediate shows its target. -/
theorem OperandForm.completedBy_of_isRelative {form : OperandForm} {v : Imm}
    (hForm : form.isRelative = true) (hRelative : e.opcode.absolute = false)
    (hField : e.field i = .immediate v) :
    Edit.completedBy (form.edits e i) =
      [.ofImmediate (.ofInt 64 (relativeTarget e.address e.mode v))] := by
  have hEdits : form.edits e i = branchEdits e i := by
    cases form <;> first | rfl | contradiction
  have hImmediate : e.isImmediate i = true := by rw [Encoded.isImmediate, hField]
  have hValue : e.immediate i = v := by rw [Encoded.immediate, hField]
  rw [hEdits, branchEdits, if_pos hImmediate, hRelative, hValue, ← addressIn_eq]
  rfl

/-- An absolute branch shows its distance, which is nothing where no immediate stands. -/
theorem OperandForm.completedBy_absoluteBranch :
    Edit.completedBy (OperandForm.absoluteBranch.edits e i) =
      [.ofImmediate (.ofInt 64 (byteDistance (e.immediate i)))] := by
  rw [← branchOffset_eq]
  rfl

end Forms

/-! ## Sites -/

/-- The immediate that the site shows the target of. -/
def Site.offset? (e : Encoded) : Site → Option Imm
  | operand form i =>
    match e.field i with
    | .immediate v => if form.isRelative then some v else none
    | _ => none
  | condition .. => none

/-- The immediate that a relative branch shows the target of. -/
def relativeOffset? (e : Encoded) : Option Imm := e.opcode.sites.findSome? (Site.offset? e)

/-- The site shows a target that is relative to the address. -/
def Site.isRelative : Site → Bool
  | operand form _ => form.isRelative
  | condition .. => false

/-- The site shows a target that is absolute. -/
def Site.isAbsoluteBranch : Site → Bool
  | operand .absoluteBranch _ => true
  | _ => false

section Sites

variable {e : Encoded} {site : Site} {v : Imm}

theorem Site.offset?_eq_some_iff :
    site.offset? e = some v ↔
      ∃ form i, site = .operand form i ∧ form.isRelative = true ∧ e.field i = .immediate v := by
  cases site with
  | condition form i => simp [offset?]
  | operand form i =>
      cases hField : e.field i with
      | immediate w =>
          have hOffset : (operand form i).offset? e = if form.isRelative then some w else none := by
            simp only [offset?, hField]
          rw [hOffset]
          constructor
          · intro hSome
            split at hSome
            · next hForm =>
              cases hSome
              exact ⟨form, i, rfl, hForm, hField⟩
            · contradiction
          · rintro ⟨_, _, hSite, hForm, hHere⟩
            cases hSite
            cases hField.symm.trans hHere
            rw [if_pos hForm]
      | _ =>
          constructor
          · simp [offset?, hField]
          · rintro ⟨_, _, hSite, _, hHere⟩
            cases hSite
            rw [hField] at hHere
            contradiction

theorem Site.isRelative_of_offset?_some (h : site.offset? e = some v) :
    site.isRelative = true := by
  obtain ⟨form, i, rfl, hForm, _⟩ := offset?_eq_some_iff.mp h
  exact hForm

/-- A site without an offset visits the same from everywhere. -/
theorem Site.edits_of_offset?_none {form : OperandForm} {i : Nat} {address : BitVec 64}
    {mode : Mode} (h : (Site.operand form i).offset? e = none) :
    form.edits { e with address, mode } i = form.edits e i := by
  refine OperandForm.edits_relocated fun hForm hImmediate => ?_
  cases hField : e.field i with
  | immediate w =>
      rw [Site.offset?_eq_some_iff.mpr ⟨form, i, rfl, hForm, hField⟩] at h
      contradiction
  | _ => simp [Encoded.isImmediate, hField] at hImmediate

/-- A site without an offset completes the same from everywhere. -/
theorem Site.completed_of_offset?_none {address : BitVec 64} {mode : Mode}
    (h : site.offset? e = none) :
    site.completed { e with address, mode } = site.completed e := by
  cases site with
  | condition form i => rfl
  | operand form i => exact congrArg Edit.completedBy (edits_of_offset?_none h)

/-- A site with an offset shows its target. -/
theorem Site.completed_of_offset?_some (hRelative : e.opcode.absolute = false)
    (h : site.offset? e = some v) :
    site.completed e = [.ofImmediate (.ofInt 64 (relativeTarget e.address e.mode v))] := by
  obtain ⟨form, i, rfl, hForm, hField⟩ := offset?_eq_some_iff.mp h
  exact OperandForm.completedBy_of_isRelative hForm hRelative hField

end Sites

/-- In the table at most one site shows a relative target, and none does where a target is
absolute. -/
theorem relativeSites_of_mem_templates {t : Template} (ht : t ∈ templates) :
    (t.sites.Pairwise fun site other => (site.isRelative && other.isRelative) = false) ∧
      ∀ site ∈ t.sites, site.isRelative = true →
        t.absolute = false ∧ ∀ other ∈ t.sites, other.isAbsoluteBranch = false := by
  have hAll : ∀ t ∈ templates,
      (t.sites.Pairwise fun site other => (site.isRelative && other.isRelative) = false) ∧
        ∀ site ∈ t.sites, site.isRelative = true →
          t.absolute = false ∧ ∀ other ∈ t.sites, other.isAbsoluteBranch = false := by
    decide +kernel
  exact hAll t ht

/-- At most one site of the table has an offset. -/
theorem offset?_alone {e : Encoded} (hTable : e.opcode ∈ templates) :
    Alone (Site.offset? e) e.opcode.sites := by
  refine (relativeSites_of_mem_templates hTable).1.imp ?_
  intro site other hNotBoth
  cases hSite : site.offset? e with
  | none => exact .inl rfl
  | some v =>
      cases hOther : other.offset? e with
      | none => exact .inr rfl
      | some w =>
          rw [Site.isRelative_of_offset?_some hSite, Site.isRelative_of_offset?_some hOther]
            at hNotBoth
          contradiction

/-- The immediate of a relative branch is the one that stands at a site of a target. -/
theorem relativeOffset?_eq_some_iff {e : Encoded} {v : Imm} (hTable : e.opcode ∈ templates) :
    relativeOffset? e = some v ↔
      ∃ form i, .operand form i ∈ e.opcode.sites ∧ form.isRelative = true ∧
        e.field i = .immediate v := by
  rw [relativeOffset?, findSome?_eq_some_iff_of_alone (offset?_alone hTable)]
  constructor
  · rintro ⟨site, hSite, hOffset⟩
    obtain ⟨form, i, rfl, hForm, hField⟩ := Site.offset?_eq_some_iff.mp hOffset
    exact ⟨form, i, hSite, hForm, hField⟩
  · rintro ⟨form, i, hSite, hForm, hField⟩
    exact ⟨.operand form i, hSite, Site.offset?_eq_some_iff.mpr ⟨form, i, rfl, hForm, hField⟩⟩

/-! ## Filling -/

namespace Report

variable {e : Encoded}

/-- Where the forms of all sites do the same, filling ends the same way. -/
theorem fill_eq_of_edits {address : BitVec 64} {mode : Mode}
    (h : ∀ form i, .operand form i ∈ e.opcode.sites →
      OperandForm.edits { e with address, mode } i form = form.edits e i) :
    fill { e with address, mode } = fill e := by
  refine fill_eq_of_visit rfl rfl fun site hSite report => ?_
  cases site with
  | condition form i => rfl
  | operand form i => rw [visit, h form i hSite, visit]

/-- What the condition sites make of a condition is the same from everywhere. -/
theorem conditionAfter_relocated (condition : Option Condition) (sites : List Site)
    (address : BitVec 64) (mode : Mode) :
    conditionAfter { e with address, mode } condition sites =
      conditionAfter e condition sites := by
  induction sites generalizing condition with
  | nil => rfl
  | cons site rest ih =>
      cases site with
      | condition form i => exact ih (form.apply e i condition)
      | operand form i => exact ih condition

/-- A relative branch is filled at every address and in every mode, and the reports differ at
most in the operand that shows the target. -/
theorem fill_branch {v : Imm} (hTable : e.opcode ∈ templates)
    (hOffset : relativeOffset? e = some v) :
    ∃ before after : List Operand, ∃ condition effects, ∀ address mode,
      (fill { e with address, mode }).result = .ok {
        operands := Cursor.empty.extend
          (before ++ [.ofImmediate (.ofInt 64 (relativeTarget address mode v))] ++ after)
        condition, effects } := by
  have hFormed := wellFormed_of_mem_templates hTable
  obtain ⟨form, i, hSite, hForm, _⟩ := (relativeOffset?_eq_some_iff hTable).mp hOffset
  have hRelative := ((relativeSites_of_mem_templates hTable).2 _ hSite hForm).1
  have hCompleted : ∃ before after : List Operand, ∀ p : BitVec 64 × Mode,
      e.opcode.sites.flatMap (Site.completed { e with address := p.1, mode := p.2 }) =
        before ++ (e.opcode.sites.findSome? (Site.offset? e)).toList.flatMap
          (fun v => [.ofImmediate (.ofInt 64 (relativeTarget p.1 p.2 v))]) ++ after :=
    flatMap_relocated (e.address, e.mode)
      (fun site _ hNone p => Site.completed_of_offset?_none hNone)
      (fun site _ w hSome p => Site.completed_of_offset?_some hRelative hSome)
      (offset?_alone hTable)
  rw [show e.opcode.sites.findSome? (Site.offset? e) = some v from hOffset] at hCompleted
  obtain ⟨before, after, hCompleted⟩ := hCompleted
  obtain ⟨condition, fresh, effects, hCondition, hFresh, hSettle, _⟩ := fill_of_wellFormed hFormed
  refine ⟨before, after, conditionAfter e condition e.opcode.sites, effects,
    fun address mode => ?_⟩
  obtain ⟨condition', fresh', effects', hCondition', hFresh', hSettle', hFill⟩ :=
    fill_of_wellFormed (e := { e with address, mode }) hFormed
  cases hCondition.symm.trans hCondition'
  cases hFresh.symm.trans hFresh'
  rw [conditionAfter_relocated] at hSettle' hFill
  cases hSettle.symm.trans hSettle'
  rw [hFill, hCompleted (address, mode)]
  simp

/-- An absolute branch is filled the same from everywhere, and shows its distance. -/
theorem fill_absoluteBranch {i : Nat} (hTable : e.opcode ∈ templates)
    (hSite : .operand .absoluteBranch i ∈ e.opcode.sites) :
    relativeOffset? e = none ∧ ∃ report, (fill e).result = .ok report ∧
      .ofImmediate (.ofInt 64 (byteDistance (e.immediate i))) ∈ report.operands.toList := by
  constructor
  · cases hOffset : relativeOffset? e with
    | none => rfl
    | some v =>
        obtain ⟨form, k, hRelative, hForm, _⟩ := (relativeOffset?_eq_some_iff hTable).mp hOffset
        have hNone := ((relativeSites_of_mem_templates hTable).2 _ hRelative hForm).2 _ hSite
        contradiction
  · obtain ⟨report, hFill, hOperands, _⟩ := fill_progress (wellFormed_of_mem_templates hTable)
    refine ⟨report, hFill, ?_⟩
    rw [hOperands, Cursor.toList_extend]
    refine List.mem_append_right _ (List.mem_flatMap.mpr ⟨_, hSite, ?_⟩)
    rw [Site.completed, OperandForm.completedBy_absoluteBranch]
    exact List.mem_singleton_self _

end Report

/-- Of the mode, filling sees one flag.  It sees the address, and that flag, only in an
instruction with a relative branch on an immediate; such an instruction is filled
everywhere, and the reports are the same but for the operand that shows the target.  The
target is the distance of the branch from the address, as a signed 64-bit number in wide
mode and as an unsigned 32-bit one otherwise.  An absolute branch shows its distance, the
same from everywhere, or zero if there is no immediate. -/
theorem fill_from_anywhere (e : Encoded) :
    (∀ mode, mode.wide = e.mode.wide → Report.fill { e with mode } = Report.fill e) ∧
    (relativeOffset? e = none →
      ∀ address mode, Report.fill { e with address, mode } = Report.fill e) ∧
    (e.opcode ∈ templates →
      (∀ v, relativeOffset? e = some v ↔
        ∃ form i, .operand form i ∈ e.opcode.sites ∧ form.isRelative = true ∧
          e.field i = .immediate v) ∧
      (∀ v, relativeOffset? e = some v →
        ∃ before after : List Operand, ∃ condition effects, ∀ address mode, ∃ target : Imm,
          target.toInt = relativeTarget address mode v ∧
          (Report.fill { e with address, mode }).result = .ok {
            operands := Cursor.empty.extend (before ++ [.ofImmediate target] ++ after)
            condition, effects }) ∧
      ∀ i, .operand .absoluteBranch i ∈ e.opcode.sites →
        ∃ report : Report, ∃ distance : Imm,
          distance.toInt = (if e.isImmediate i then byteDistance (e.immediate i) else 0) ∧
          .ofImmediate distance ∈ report.operands.toList ∧
          ∀ address mode, (Report.fill { e with address, mode }).result = .ok report) := by
  have hSame : relativeOffset? e = none →
      ∀ address mode, Report.fill { e with address, mode } = Report.fill e := by
    intro hNone address mode
    refine Report.fill_eq_of_edits fun form i hSite => Site.edits_of_offset?_none ?_
    exact List.findSome?_eq_none_iff.mp hNone _ hSite
  refine ⟨?_, hSame, fun hTable => ⟨fun v => relativeOffset?_eq_some_iff hTable, ?_, ?_⟩⟩
  · intro mode hWide
    refine Report.fill_eq_of_edits fun form i _ => OperandForm.edits_relocated fun _ _ offset => ?_
    rw [addressIn, addressIn, hWide]
  · intro v hOffset
    obtain ⟨before, after, condition, effects, hFill⟩ := Report.fill_branch hTable hOffset
    refine ⟨before, after, condition, effects, fun address mode => ⟨_, ?_, hFill address mode⟩⟩
    rw [← addressIn_eq, toInt_addressIn]
  · intro i hSite
    obtain ⟨hNone, report, hFill, hShown⟩ := Report.fill_absoluteBranch hTable hSite
    refine ⟨report, _, ?_, hShown, fun address mode => hSame hNone address mode ▸ hFill⟩
    rw [← branchOffset_eq, toInt_branchOffset]
    split
    · rfl
    · next hOther =>
      have hZero : e.immediate i = 0 := by
        cases hField : e.field i with
        | immediate v => simp [Encoded.isImmediate, hField] at hOther
        | _ => simp [Encoded.immediate, hField]
      rw [hZero]
      rfl

/-- A call a little way back. -/
def callBack : Encoded where
  opcode := (templates.find? (·.name == "BL")).get (by decide +kernel)
  fields := [.immediate (-2)]

/-- A branch to an absolute address. -/
def branchAbsolute : Encoded where
  opcode := (templates.find? (·.name == "BA")).get (by decide +kernel)
  fields := [.immediate (-2)]

/-- The call wraps around below address eight: to a negative number in wide mode, and
to the end of the low addresses otherwise.  Big-endian code makes no difference.  The
absolute branch shows the same distance from everywhere. -/
theorem fill_callBack :
    Report.fill { callBack with mode := { bigEndian := true } } = Report.fill callBack ∧
      callBack.opcode ∈ templates ∧ relativeOffset? callBack = some (-2) ∧
      (∃ before after : List Operand, ∃ condition effects, ∀ address mode, ∃ target : Imm,
        target.toInt = relativeTarget address mode (-2) ∧
        (Report.fill { callBack with address, mode }).result = .ok {
          operands := Cursor.empty.extend (before ++ [.ofImmediate target] ++ after)
          condition, effects }) ∧
      relativeTarget 4 { wide := true } (-2) = -4 ∧
      relativeTarget 4 { wide := false } (-2) = 0xfffffffc ∧
      branchAbsolute.opcode ∈ templates ∧ relativeOffset? branchAbsolute = none ∧
      Report.fill { branchAbsolute with address := 4, mode := { wide := true } } =
        Report.fill branchAbsolute ∧
      ∃ report : Report, ∃ distance : Imm, distance.toInt = -8 ∧
        .ofImmediate distance ∈ report.operands.toList ∧
        (Report.fill branchAbsolute).result = .ok report := by
  have hTable : callBack.opcode ∈ templates := by
    dsimp only [callBack]
    exact List.get_find?_mem _
  have hAlso : branchAbsolute.opcode ∈ templates := by
    dsimp only [branchAbsolute]
    exact List.get_find?_mem _
  obtain ⟨hMode, _, hFill⟩ := fill_from_anywhere callBack
  obtain ⟨hOffset, hBranch, _⟩ := hFill hTable
  have hBack : relativeOffset? callBack = some (-2) :=
    (hOffset (-2)).mpr ⟨.branch, 0, by decide, rfl, rfl⟩
  obtain ⟨_, hSame, hAbsolute⟩ := fill_from_anywhere branchAbsolute
  obtain ⟨report, distance, hDistance, hShown, hEach⟩ := (hAbsolute hAlso).2.2 0 (by decide)
  exact ⟨hMode _ rfl, hTable, hBack, hBranch (-2) hBack, by decide, by decide, hAlso, rfl,
    hSame rfl _ _, report, distance, hDistance, hShown,
    hEach branchAbsolute.address branchAbsolute.mode⟩

end OperandReport.Power
