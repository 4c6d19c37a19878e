import OperandReport.Proofs.Arm.Bracketing
import OperandReport.Proofs.Arm.Ordinary
import OperandReport.Proofs.Screening

/-!
# Shifts of reported operands

A form that completes a shifted register, or memory with a shifted index, writes the shift
of its own operand; a form that looks back writes that of the operand before it.
`OperandForm.shift` says what each form asks for.  A reported operand is not shifted, or it
is shifted as the form of some site asks: every edit maintains this, so a whole report has
it.  No template has two sites that ask for a shift.

In a normal shift there is no distance without a kind that needs one, and a register that
holds the distance is known.  All forms but one ask for normal shifts, whatever their fields
are.  A register shifted by a register is the exception: for an operation that takes no
register, the number of the register stays behind next to no kind.  That is a bare distance.
The forms that shift by a constant leave the operand alone there.

## Main results

* `OperandForm.maintains_shift`: the edits of a form write the shift that it asks for, or none.
* `OperandForm.normal_shift_iff`: when that shift is normal.
* `take_fill_shifts`: the shifts of a filled report are normal, but for bare distances.
-/

namespace OperandReport.Arm

/-! ## Normal shifts -/

/-- The kind is one of a shift by a constant distance. -/
def ShiftKind.takesDistance : ShiftKind → Bool
  | asr | lsl | lsr | ror | uxtw => true
  | _ => false

namespace Shift

/-- A shift of no kind and the extended rotation have no distance, and a register that holds
the distance is known. -/
structure Normal (s : Shift) : Prop where
  distance : s.kind = .none ∨ s.kind = .rrx → s.value = 0
  register : s.kind.isByRegister = true → (Register.ofId? s.value).isSome = true

theorem normal_default : ({} : Shift).Normal where
  distance _ := rfl
  register := nofun

/-- The other shifts by a constant are normal with any distance. -/
theorem normal_of_takesDistance {kind : ShiftKind} (h : kind.takesDistance = true) (value : Nat) :
    Normal ⟨kind, value⟩ := by
  cases kind with
  | asr | lsl | lsr | ror | uxtw => exact ⟨by rintro (h | h) <;> contradiction, nofun⟩
  | _ => contradiction

/-- A shift by a constant is normal. -/
theorem normal_constant (operation : ShiftOperation) (amount : Nat) :
    ((constant? operation amount).getD {}).Normal := by
  cases operation with
  | none => exact normal_default
  | rrx => exact ⟨fun _ => rfl, nofun⟩
  | lsl =>
      unfold constant?
      dsimp only
      split
      · exact normal_default
      · exact normal_of_takesDistance rfl _
  | asr | lsr | ror | uxtw => exact normal_of_takesDistance rfl _

/-- A shift by a known register is normal, unless the operation takes no register and there is
one. -/
theorem normal_byRegister_iff {operation : ShiftOperation} {r : Register}
    (hKnown : (Register.ofId? r.id).isSome = true) :
    (byRegister operation r).Normal ↔ (operation = .none ∨ operation = .uxtw → r.id = 0) := by
  have hTakes : operation ≠ .none → operation ≠ .uxtw →
      (operation = .none ∨ operation = .uxtw → r.id = 0) := by
    rintro hNone hUxtw (h | h)
    · exact absurd h hNone
    · exact absurd h hUxtw
  cases operation with
  | none | uxtw =>
      constructor
      · intro hNormal _
        exact hNormal.distance (.inl rfl)
      · intro h
        exact ⟨fun _ => h (by simp), nofun⟩
  | rrx => exact iff_of_true ⟨fun _ => rfl, nofun⟩ (hTakes nofun nofun)
  | asr | lsl | lsr | ror =>
      exact iff_of_true ⟨by rintro (h | h) <;> contradiction, fun _ => hKnown⟩
        (hTakes nofun nofun)

end Shift

/-! ## What forms ask for -/

namespace OperandForm

open Edit (Complete)

/-- The shift that the form asks for. -/
def shift (e : Encoded) (i : Nat) : OperandForm → Shift
  | fixedShift code amount => (Shift.constant? (.ofCode code) amount).getD {}
  | registerShifted =>
    .byRegister (Shifter.ofWord (e.immediate (i + 2)).word).operation (registerAt e (i + 1))
  | constantShifted | wideConstantShifted =>
    let shifter := Shifter.ofWord (e.immediate (i + 1)).word
    (Shift.constant? shifter.operation shifter.amount).getD {}
  | mode2 =>
    let mode := Mode2.ofWord (e.immediate (i + 2)).word
    (Shift.constant? mode.shift mode.offset).getD {}
  | mode2Offset =>
    let mode := Mode2.ofWord (e.immediate (i + 1)).word
    (Shift.constant? mode.shift mode.offset).getD {}
  | shiftedIndex => (indexedOperand e i .lsl (e.immediate (i + 2)).word.toNat).shift
  | tableByte => (indexedOperand e i .lsl 0).shift
  | tableHalf => (indexedOperand e i .lsl 1).shift
  | vectorOffsets distance => (indexedOperand e i .uxtw distance).shift
  | packLeft =>
    let amount := (e.immediate i).word.toNat
    if amount = 0 then {} else ⟨.lsl, amount⟩
  | packRight => ⟨.asr, Arm.shiftDistance (e.immediate i).word.toNat⟩
  | saturationShift => (saturationShift? (e.immediate i).word).getD {}
  | byteRotation =>
    let w := (e.immediate i).word
    if w = 0 then {} else ⟨.ror, (w * 8).toNat⟩
  | _ => {}

/-- The form may ask for a shift, of its own operand or of the one before it. -/
def asksForShift : OperandForm → Bool
  | fixedShift .. | packLeft | packRight | saturationShift | byteRotation => true
  | form => form.mayShift

/-- The fields of the form encode that nothing is shifted. -/
def EncodesNoShift (e : Encoded) (i : Nat) : OperandForm → Prop
  | registerShifted => (Shifter.ofWord (e.immediate (i + 2)).word).operation = .none
  | constantShifted | wideConstantShifted =>
    (Shifter.ofWord (e.immediate (i + 1)).word).operation = .none
  | mode2 => (Mode2.ofWord (e.immediate (i + 2)).word).shift = .none
  | mode2Offset => (Mode2.ofWord (e.immediate (i + 1)).word).shift = .none
  | shiftedIndex => (e.immediate (i + 2)).word = 0
  | packLeft | byteRotation => (e.immediate i).word = 0
  | saturationShift => (e.immediate i).word.toNat % 64 = 0
  | _ => False

section

variable {e : Encoded} {i : Nat} {form : OperandForm}

theorem shift_of_not_asksForShift (h : form.asksForShift = false) : form.shift e i = {} := by
  cases form <;> first | rfl | contradiction

theorem asksForShift_of_encodesNoShift (h : form.EncodesNoShift e i) :
    form.asksForShift = true := by
  cases form <;> first | rfl | contradiction

/-- A form that may not shift completes operands without a shift. -/
theorem complete_unshifted (hKnown : AllKnown e) (hShift : form.mayShift = false) :
    Complete (·.shift = {}) (form.edits e i) := by
  cases hAbsent : form.showsAbsent with
  | false => exact (complete_ordinary hKnown hAbsent hShift).mono fun _ h => h.shift
  | true =>
      cases form with
      | postRegister => exact .report rfl
      | corePair | quadList => exact complete_partEdits fun _ _ => rfl
      | vectorList => exact complete_vectorListEdits fun _ _ => rfl
      | _ => contradiction

/-- A form completes operands without a shift, or with the one that it asks for. -/
theorem complete_shift (hKnown : AllKnown e) :
    Complete (fun op => op.shift = {} ∨ op.shift = form.shift e i) (form.edits e i) := by
  cases hShift : form.mayShift with
  | false => exact (complete_unshifted hKnown hShift).mono fun _ h => .inl h
  | true =>
      cases form with
      | registerShifted | constantShifted | wideConstantShifted => exact .report (.inr rfl)
      | mode2 =>
          show Complete _ (mode2Edits e i)
          rw [mode2Edits_eq]
          refine complete_onBase hKnown (fun _ h => .inl h.shift) fun base => ?_
          dsimp only
          split
          · exact .bracket (.inl rfl)
          · exact .bracket (.inr rfl)
      | mode2Offset =>
          unfold edits
          dsimp only
          split
          · exact .report (.inl rfl)
          · exact .report (.inr rfl)
      | shiftedIndex | tableByte | tableHalf | vectorOffsets => exact .bracket (.inr rfl)
      | _ => contradiction

private theorem maintains_amendShift {q : Shift → Prop} {shift? : Option Shift}
    (h : ∀ s, shift? = some s → q s) :
    ∀ edit ∈ amendShift shift?, edit.Maintains (q ·.shift) := by
  cases shift? with
  | none => exact fun _ hEdit => absurd hEdit List.not_mem_nil
  | some s =>
      intro edit hEdit
      rw [List.mem_singleton.mp hEdit]
      exact fun _ _ => h s rfl

/-- What no shift has, and the one that a form asks for, is maintained by the form's edits. -/
theorem maintains_shift {q : Shift → Prop} (hKnown : AllKnown e) (hNone : q {})
    (hOwn : q (form.shift e i)) : ∀ edit ∈ form.edits e i, edit.Maintains (q ·.shift) := by
  cases hForm : form.looksBack with
  | false =>
      refine Edit.maintains_of_complete (form.contributes e i hForm).additive
        ((complete_shift hKnown).mono fun op h => ?_)
      rcases h with h | h
      · exact h ▸ hNone
      · exact h ▸ hOwn
  | true =>
      cases form with
      | vectorIndex | lane =>
          intro edit hEdit
          rw [List.mem_singleton.mp hEdit]
          exact fun _ h => h
      | packRight =>
          intro edit hEdit
          rw [List.mem_singleton.mp hEdit]
          exact fun _ _ => hOwn
      | fixedShift code amount =>
          refine maintains_amendShift fun s hs => ?_
          rwa [shift, hs] at hOwn
      | saturationShift =>
          refine maintains_amendShift fun s hs => ?_
          rwa [shift, hs] at hOwn
      | packLeft | byteRotation =>
          refine maintains_amendShift fun s hs => ?_
          simp only [shift] at hOwn
          split at hs
          · contradiction
          · next hSome =>
            cases hs
            rwa [if_neg hSome] at hOwn
      | _ => contradiction

end

end OperandForm

/-! ## Bare distances -/

/-- A site shifts its register by a register that is there, with an operation that takes no
register. -/
structure BareDistance (e : Encoded) (i : Nat) : Prop where
  site : .operand .registerShifted i ∈ e.opcode.sites
  operation : (Shifter.ofWord (e.immediate (i + 2)).word).operation = .none ∨
    (Shifter.ofWord (e.immediate (i + 2)).word).operation = .uxtw
  isThere : e.registerId (i + 1) ≠ 0

section

variable {e : Encoded} {i : Nat} {form : OperandForm}

theorem AllKnown.id_registerAt (hKnown : AllKnown e) : (registerAt e i).id = e.registerId i :=
  congrArg Register.id (Register.ofId?_eq_some_iff.mp (hKnown i)).1

/-- Of a bare distance the number of the register stays behind. -/
theorem BareDistance.shift (h : BareDistance e i) (hKnown : AllKnown e) :
    OperandForm.registerShifted.shift e i = ⟨.none, e.registerId (i + 1)⟩ := by
  unfold OperandForm.shift
  rw [← hKnown.id_registerAt]
  rcases h.operation with hOperation | hOperation
  · rw [hOperation]
    rfl
  · rw [hOperation]
    rfl

theorem normal_shift_indexedOperand (operation : ShiftOperation) (amount : Nat) :
    (indexedOperand e i operation amount).shift.Normal := by
  simp only [indexedOperand]
  split
  · exact Shift.normal_default
  · exact Shift.normal_constant operation amount

/-- At a site, a form asks for a normal shift just if that is no bare distance. -/
theorem OperandForm.normal_shift_iff (hKnown : AllKnown e)
    (hSite : .operand form i ∈ e.opcode.sites) :
    (form.shift e i).Normal ↔ ¬ (form = .registerShifted ∧ BareDistance e i) := by
  by_cases hForm : form = .registerShifted
  · subst hForm
    have hRegister : (Register.ofId? (registerAt e (i + 1)).id).isSome = true := by
      rw [hKnown.id_registerAt, hKnown]
      rfl
    rw [shift, Shift.normal_byRegister_iff hRegister, hKnown.id_registerAt]
    constructor
    · rintro hZero ⟨_, hBare⟩
      exact hBare.isThere (hZero hBare.operation)
    · intro hNot hOperation
      exact Classical.byContradiction fun hSome => hNot ⟨rfl, hSite, hOperation, hSome⟩
  · refine iff_of_true ?_ fun hBare => hForm hBare.1
    cases form with
    | registerShifted => contradiction
    | fixedShift | constantShifted | wideConstantShifted | mode2 | mode2Offset =>
        exact Shift.normal_constant _ _
    | shiftedIndex | tableByte | tableHalf | vectorOffsets =>
        exact normal_shift_indexedOperand _ _
    | packRight => exact Shift.normal_of_takesDistance rfl _
    | packLeft | byteRotation =>
        simp only [shift]
        split
        · exact Shift.normal_default
        · exact Shift.normal_of_takesDistance rfl _
    | saturationShift =>
        simp only [shift, saturationShift?]
        split
        · exact Shift.normal_of_takesDistance rfl _
        · split
          · exact Shift.normal_default
          · exact Shift.normal_of_takesDistance rfl _
    | _ => exact Shift.normal_default

/-- A form that encodes no shift asks for none, unless it leaves a bare distance. -/
theorem OperandForm.shift_of_encodesNoShift (hKnown : AllKnown e)
    (hSite : .operand form i ∈ e.opcode.sites) (hEncodes : form.EncodesNoShift e i)
    (hNot : ¬ BareDistance e i) : form.shift e i = {} := by
  have hNone : ∀ {operation amount}, operation = ShiftOperation.none →
      (Shift.constant? operation amount).getD {} = {} := by
    rintro operation amount rfl
    rfl
  cases form with
  | registerShifted =>
      have hOperation : (Shifter.ofWord (e.immediate (i + 2)).word).operation = .none := hEncodes
      have hZero : e.registerId (i + 1) = 0 :=
        Classical.byContradiction fun hSome => hNot ⟨hSite, .inl hOperation, hSome⟩
      rw [shift, hOperation, hKnown.registerAt_eq_none_iff.mpr hZero]
      rfl
  | constantShifted | wideConstantShifted | mode2 | mode2Offset => exact hNone hEncodes
  | shiftedIndex =>
      have hZero : (e.immediate (i + 2)).word = 0 := hEncodes
      simp [shift, indexedOperand, hZero]
  | packLeft | byteRotation =>
      have hZero : (e.immediate i).word = 0 := hEncodes
      simp [shift, hZero]
  | saturationShift =>
      have hZero : (e.immediate i).word.toNat % 64 = 0 := hEncodes
      have hLeft : ¬ (e.immediate i).word.toNat / 32 % 2 = 1 := by omega
      have hAmount : (e.immediate i).word.toNat % 32 = 0 := by omega
      simp [shift, saturationShift?, hLeft, hAmount]
  | _ => contradiction

end

/-! ## Filled reports -/

/-- The site may ask for a shift. -/
def Site.asksForShift : Site → Bool
  | effect .. => false
  | operand form _ => form.asksForShift

/-- No template has two sites that ask for a shift. -/
theorem eq_of_asksForShift {t : Template} (ht : t ∈ templates) {site other : Site}
    (hSite : site ∈ t.sites) (hOther : other ∈ t.sites) (hAsks : site.asksForShift = true)
    (hAlso : other.asksForShift = true) : site = other := by
  have hAll : ∀ t ∈ templates, ∀ site ∈ t.sites, ∀ other ∈ t.sites,
      site.asksForShift = true → other.asksForShift = true → site = other := by
    decide +kernel
  exact hAll t ht site hSite other hOther hAsks hAlso

/-- There is no shift, or it is the one that some site asks for. -/
def AskedFor (e : Encoded) (s : Shift) : Prop :=
  s = {} ∨ ∃ form i, .operand form i ∈ e.opcode.sites ∧ s = form.shift e i

namespace Report

variable {e : Encoded} {report : Report}

/-- A reported operand is not shifted, or it is shifted as some site asks. -/
theorem shift_of_fill (hKnown : AllKnown e) (h : (fill e).result = .ok report) :
    ∀ op ∈ report.operands.toList, AskedFor e op.shift := by
  refine fill_maintains (fun form i hSite => ?_) h
  exact OperandForm.maintains_shift hKnown (.inl rfl) (.inr ⟨form, i, hSite, rfl⟩)

/-- A bare distance gets into the report. -/
theorem exists_bareDistance (hTable : e.opcode.WellPlaced) (hKnown : AllKnown e)
    (h : (fill e).result = .ok report) {i : Nat} (hBare : BareDistance e i) :
    ∃ op ∈ report.operands.toList, op.shift = ⟨.none, e.registerId (i + 1)⟩ :=
  ⟨_, mem_of_completed hTable hBare.site rfl (List.mem_singleton.mpr rfl) h, hBare.shift hKnown⟩

/-- Where a site encodes no shift, nothing is shifted, unless it leaves a bare distance. -/
theorem unshifted_iff (hTable : e.opcode ∈ templates) (hKnown : AllKnown e)
    (h : (fill e).result = .ok report) {form : OperandForm} {i : Nat}
    (hSite : .operand form i ∈ e.opcode.sites) (hEncodes : form.EncodesNoShift e i) :
    (∀ op ∈ report.operands.toList, op.shift = {}) ↔ ¬ BareDistance e i := by
  constructor
  · intro hNone hBare
    obtain ⟨op, hOp, hShift⟩ :=
      exists_bareDistance (wellPlaced_of_mem_templates hTable) hKnown h hBare
    exact hBare.isThere (congrArg Shift.value (hShift.symm.trans (hNone op hOp)))
  · intro hNot op hOp
    rcases shift_of_fill hKnown h op hOp with hNone | ⟨other, j, hOther, hShift⟩
    · exact hNone
    · rw [hShift]
      cases hAsks : other.asksForShift with
      | false => exact OperandForm.shift_of_not_asksForShift hAsks
      | true =>
          cases eq_of_asksForShift hTable hSite hOther
            (OperandForm.asksForShift_of_encodesNoShift hEncodes) hAsks
          exact OperandForm.shift_of_encodesNoShift hKnown hSite hEncodes hNot

end Report

/-- Every shift of a filled report is normal, or it is the number that a bare distance leaves
behind.  So all are normal just if there is no bare distance; and where a site encodes no
shift, no operand is shifted just if that site leaves no bare distance. -/
theorem take_fill_shifts {e : Encoded} {insn filled : Instruction}
    (hTable : e.opcode ∈ templates) (hBuild : Instruction.build e true = .ok insn)
    (hTake : (insn.take .fill).result = .ok filled) :
    ∃ report : Report, filled = { e with report := some report } ∧
      (∀ op ∈ report.operands.toList, op.shift.Normal ∨
        ∃ i, BareDistance e i ∧ op.shift = ⟨.none, e.registerId (i + 1)⟩) ∧
      ((∀ op ∈ report.operands.toList, op.shift.Normal) ↔ ∀ i, ¬ BareDistance e i) ∧
      ∀ form i, .operand form i ∈ e.opcode.sites → form.EncodesNoShift e i →
        ((∀ op ∈ report.operands.toList, op.shift = {}) ↔ ¬ BareDistance e i) := by
  have hKnown : AllKnown e := ofId?_of_build hBuild
  obtain ⟨_, rfl⟩ := takes_of_build hBuild
  obtain ⟨report, hFill, rfl⟩ := map_eq_ok_iff.mp hTake
  have hNormal : ∀ op ∈ report.operands.toList, op.shift.Normal ∨
      ∃ i, BareDistance e i ∧ op.shift = ⟨.none, e.registerId (i + 1)⟩ := by
    intro op hOp
    rcases Report.shift_of_fill hKnown hFill op hOp with hNone | ⟨form, i, hSite, hShift⟩
    · exact .inl (hNone ▸ Shift.normal_default)
    · by_cases hBare : form = .registerShifted ∧ BareDistance e i
      · obtain ⟨rfl, hBare⟩ := hBare
        exact .inr ⟨i, hBare, hShift.trans (hBare.shift hKnown)⟩
      · exact .inl (hShift ▸ (form.normal_shift_iff hKnown hSite).mpr hBare)
  refine ⟨report, rfl, hNormal, ⟨?_, ?_⟩, ?_⟩
  · intro hAll i hBare
    obtain ⟨op, hOp, hShift⟩ :=
      Report.exists_bareDistance (wellPlaced_of_mem_templates hTable) hKnown hFill hBare
    exact hBare.isThere ((hShift ▸ hAll op hOp).distance (.inl rfl))
  · intro hNone op hOp
    rcases hNormal op hOp with h | ⟨i, hBare, _⟩
    · exact h
    · exact absurd hBare (hNone i)
  · intro form i hSite hEncodes
    exact Report.unshifted_iff hTable hKnown hFill hSite hEncodes

/-- An addition of a register that is shifted by a register, without an operation. -/
def addBareDistance : Encoded where
  opcode := (templates.find? (·.name == "ADDrsr")).get (by decide +kernel)
  fields := [.register 32, .register 33, .register 34, .register 35, .immediate 0, .immediate 14,
    .register 0, .register 0]

/-- The third operand of that addition is not shifted, and yet it has a distance. -/
theorem take_fill_addBareDistance :
    addBareDistance.opcode ∈ templates ∧
      Instruction.build addBareDistance true =
        .ok { addBareDistance with report := some (default : Report) } ∧
      ∃ report : Report,
        (Instruction.take { addBareDistance with report := some (default : Report) }
          .fill).result = .ok { addBareDistance with report := some report } ∧
        report.operands.toList.map Operand.shift = [{}, {}, ⟨.none, 35⟩] ∧
        ¬ Shift.Normal ⟨.none, 35⟩ := by
  have hTable : addBareDistance.opcode ∈ templates := by
    dsimp only [addBareDistance]
    exact List.get_find?_mem _
  have hNot : ¬ Shift.Normal ⟨.none, 35⟩ := fun hNormal =>
    absurd (hNormal.distance (.inl rfl)) (by decide)
  exact ⟨hTable, rfl, _, rfl, rfl, hNot⟩

/-- An addition of a register that is shifted left by a register. -/
def addShiftedLeft : Encoded where
  opcode := (templates.find? (·.name == "ADDrsr")).get (by decide +kernel)
  fields := [.register 32, .register 33, .register 34, .register 35, .immediate 2, .immediate 14,
    .register 0, .register 0]

/-- With an operation that takes a register, all shifts are normal. -/
theorem take_fill_addShiftedLeft :
    ∃ report : Report,
      (Instruction.take { addShiftedLeft with report := some (default : Report) }
        .fill).result = .ok { addShiftedLeft with report := some report } ∧
      ∀ op ∈ report.operands.toList, op.shift.Normal := by
  have hTable : addShiftedLeft.opcode ∈ templates := by
    dsimp only [addShiftedLeft]
    exact List.get_find?_mem _
  obtain ⟨report, hFilled, _, hNormal, _⟩ :=
    take_fill_shifts (e := addShiftedLeft) hTable rfl rfl
  refine ⟨report, congrArg Except.ok hFilled, hNormal.mpr fun i hBare => ?_⟩
  have hPlace : i = 2 := by
    have hMem : Site.operand .registerShifted i ∈
        addShiftedLeft.opcode.sites.filter Site.asksForShift :=
      List.mem_filter.mpr ⟨hBare.site, rfl⟩
    rw [show addShiftedLeft.opcode.sites.filter Site.asksForShift =
      [.operand .registerShifted 2] from rfl, List.mem_singleton] at hMem
    exact (Site.operand.inj hMem).2
  subst hPlace
  exact absurd hBare.operation (by decide)

end OperandReport.Arm
