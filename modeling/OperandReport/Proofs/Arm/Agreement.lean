import OperandReport.Arm.Assembly
import OperandReport.Proofs.Agreement

/-!
# What an ARM site reads

A site reads the fields of its window, the template, two flags of the mode, and, if a
plain immediate of its opcode is relative, the target that this immediate stands for.
`SameContext` says that two instructions agree on all of this but the fields.

If they also agree on the window of a site, a visit of the site ends the same way on
every report.  This is proved piece by piece for the edits of the operand forms, and then
carried over visits, runs and fills.  The register list is the one form without a window
of its own: it reads on to the last field.

## Main results

* `OperandForm.edits_congr`, `Effects.apply_congr`: a form reads its window.
* `Report.visit_congr`, `Report.fill_congr`: a visit, and the filling of a report.
-/

namespace OperandReport.Arm

/-- The two instructions differ at most in their fields, as far as sites can tell. -/
structure SameContext (e e' : Encoded) : Prop where
  opcode : e.opcode = e'.opcode
  v8 : e.mode.v8 = e'.mode.v8
  mClass : e.mode.mClass = e'.mode.mClass
  target : e.opcode.relative = true → ∀ v, branchTarget e v = branchTarget e' v

theorem sameContext_fields (e : Encoded) (fields : List Field) :
    SameContext e { e with fields } :=
  ⟨rfl, rfl, rfl, fun _ _ => rfl⟩

/-- What is read off field `i` is the same for both instructions. -/
structure SameAt (e e' : Encoded) (i : Nat) : Prop where
  field : e.field i = e'.field i
  isRegister : e.isRegister i = e'.isRegister i
  registerId : e.registerId i = e'.registerId i
  register : registerAt e i = registerAt e' i
  immediate : e.immediate i = e'.immediate i
  access : accessAt e i = accessAt e' i
  nominalAccess : nominalAccessAt e i = nominalAccessAt e' i

theorem SameContext.sameAt {e e' : Encoded} {i : Nat} (hContext : SameContext e e')
    (hField : e.field i = e'.field i) : SameAt e e' i where
  field := hField
  isRegister := Encoded.isRegister_congr hField
  registerId := Encoded.registerId_congr hField
  register := by rw [registerAt, Encoded.registerId_congr hField, registerAt]
  immediate := Encoded.immediate_congr hField
  access := by rw [accessAt, hContext.opcode, accessAt]
  nominalAccess := by rw [nominalAccessAt, hContext.opcode, nominalAccessAt]

/-! ## Pieces -/

section Pieces

variable {e e' : Encoded} {i : Nat}

theorem plainEdits_congr (hContext : SameContext e e') (h : SameAt e e' i) :
    plainEdits e i = plainEdits e' i := by
  unfold plainEdits
  rw [h.field, h.register, h.access, ← hContext.opcode]
  split
  · rfl
  · rfl
  · next v _ =>
    cases hRelative : e.opcode.relative with
    | false => rfl
    | true =>
        dsimp only
        rw [hContext.target hRelative]

theorem onBase_congr {edits edits' : Register → List (Edit Operand)}
    (hContext : SameContext e e') (h : SameAt e e' i) (hEdits : ∀ base, edits base = edits' base) :
    onBase e i edits = onBase e' i edits' := by
  unfold onBase
  rw [h.isRegister, h.register, plainEdits_congr hContext h, hEdits]

theorem memoryOperand_congr (h : SameAt e e' i) (m : Memory) :
    memoryOperand e i m = memoryOperand e' i m := by
  rw [memoryOperand, h.nominalAccess, memoryOperand]

theorem signedOffsetEdits_congr (hContext : SameContext e e') (h : SameAt e e' i)
    (hNext : SameAt e e' (i + 1)) (showZero : Bool) :
    signedOffsetEdits e i showZero = signedOffsetEdits e' i showZero := by
  rw [signedOffsetEdits_eq, signedOffsetEdits_eq]
  refine onBase_congr hContext h fun base => ?_
  simp only [hNext.immediate, memoryOperand_congr h]

theorem scaledOffsetEdits_congr (hContext : SameContext e e') (h : SameAt e e' i)
    (hNext : SameAt e e' (i + 1)) (scale : Nat) :
    scaledOffsetEdits e i scale = scaledOffsetEdits e' i scale := by
  refine onBase_congr hContext h fun base => ?_
  simp only [hNext.immediate, memoryOperand_congr h]

theorem mode2Edits_congr (hContext : SameContext e e') (h : SameAt e e' i)
    (hNext : SameAt e e' (i + 1)) (hLast : SameAt e e' (i + 2)) :
    mode2Edits e i = mode2Edits e' i := by
  rw [mode2Edits_eq, mode2Edits_eq]
  refine onBase_congr hContext h fun base => ?_
  simp only [hNext.registerId, hNext.register, hLast.immediate, memoryOperand_congr h]

theorem mode3OffsetEdits_congr (h : SameAt e e' i) (hNext : SameAt e e' (i + 1)) :
    mode3OffsetEdits e i = mode3OffsetEdits e' i := by
  simp only [mode3OffsetEdits, h.registerId, h.register, h.access, hNext.immediate]

theorem mode3Edits_congr (hContext : SameContext e e') (h : SameAt e e' i)
    (hNext : SameAt e e' (i + 1)) (hLast : SameAt e e' (i + 2)) (showZero : Bool) :
    mode3Edits e i showZero = mode3Edits e' i showZero := by
  rw [mode3Edits_eq, mode3Edits_eq]
  refine onBase_congr hContext h fun base => ?_
  simp only [hNext.registerId, hNext.register, hLast.immediate, memoryOperand_congr h,
    mode3OffsetEdits_congr hNext hLast]

theorem mode5Edits_congr (hContext : SameContext e e') (h : SameAt e e' i)
    (hNext : SameAt e e' (i + 1)) (unit : Nat) (showZero : Bool) :
    mode5Edits e i unit showZero = mode5Edits e' i unit showZero := by
  rw [mode5Edits_eq, mode5Edits_eq]
  refine onBase_congr hContext h fun base => ?_
  simp only [hNext.immediate, memoryOperand_congr h]

theorem indexedOperand_congr (h : SameAt e e' i) (hNext : SameAt e e' (i + 1))
    (operation : ShiftOperation) (amount : Nat) :
    indexedOperand e i operation amount = indexedOperand e' i operation amount := by
  simp only [indexedOperand, h.register, hNext.register, memoryOperand_congr h]

theorem partEdits_congr (h : SameAt e e' i) (parts : List Part) :
    partEdits e i parts = partEdits e' i parts := by
  simp only [partEdits, reportRegister, h.register, h.access]

theorem runEdits_congr (h : SameAt e e' i) (steps : List Nat) :
    runEdits e i steps = runEdits e' i steps := by
  simp only [runEdits, h.register, h.access]

theorem vectorListEdits_congr (h : SameAt e e' i) (shape : VectorShape) :
    vectorListEdits e i shape = vectorListEdits e' i shape := by
  cases shape with
  | one => simp only [vectorListEdits, reportRegister, h.register, h.access]
  | two | twoSpaced => exact partEdits_congr h _
  | three | four | threeSpaced | fourSpaced => exact runEdits_congr h _

/-- A register list reads on to the last field. -/
theorem registerListEdits_congr (hContext : SameContext e e') (hFields : e.fields = e'.fields)
    (i : Nat) : registerListEdits e i = registerListEdits e' i := by
  have hEach : ∀ k, SameAt e e' k := fun k =>
    hContext.sameAt (Encoded.agreeOn_of_fields hFields k 1 k (Nat.le_refl k) (Nat.lt_succ_self k))
  unfold registerListEdits
  rw [hFields]
  congr 1
  funext k
  rw [(hEach k).register, (hEach k).nominalAccess]

end Pieces

/-! ## Forms -/

/-- The form is the register list, which has no window of its own. -/
def OperandForm.readsOn : OperandForm → Bool
  | registerList => true
  | _ => false

/-- A form that does not read on contributes the same where its window is the same. -/
theorem OperandForm.edits_congr {e e' : Encoded} {i : Nat} {form : OperandForm}
    (hContext : SameContext e e') (hForm : form.readsOn = false)
    (hWindow : e.AgreeOn e' i form.width) : form.edits e i = form.edits e' i := by
  have h : 0 < form.width → SameAt e e' i := fun hk => hContext.sameAt (hWindow.field hk)
  have hNext : 1 < form.width → SameAt e e' (i + 1) := fun hk =>
    hContext.sameAt (hWindow.field hk)
  have hLast : 2 < form.width → SameAt e e' (i + 2) := fun hk =>
    hContext.sameAt (hWindow.field hk)
  have hZeroThree : 0 < 3 := by decide
  have hOneThree : 1 < 3 := by decide
  have hTwoThree : 2 < 3 := by decide
  cases form with
  | registerList => contradiction
  -- no field
  | fixedShift code amount => rfl
  -- one field
  | plain => exact plainEdits_congr hContext (h Nat.one_pos)
  | rotatedImmediate | timesFour | shiftDistance | bitfield | coprocessor | coprocessorRegister
  | floatImmediate | vectorIndex | lane | vectorImmediate | complexRotation | coprocessorOption
  | postOffset | postWordOffset | shortPostOffset | shortPostWordOffset | label | packLeft
  | packRight | plusOne | endianness | saturation | saturationShift | byteRotation
  | fractionBits =>
      simp only [edits, rotatedEdits, vectorImmediateEdits, (h Nat.one_pos).immediate]
  | bankedRegister =>
      simp only [edits, bankedEdits, (h Nat.one_pos).immediate, (h Nat.one_pos).access]
  | statusMask => simp only [edits, (h Nat.one_pos).immediate, hContext.mClass]
  | corePair => exact partEdits_congr (h Nat.one_pos) _
  | quadList count => exact partEdits_congr (h Nat.one_pos) _
  | vectorList shape allLanes => exact vectorListEdits_congr (h Nat.one_pos) shape
  | baseOnly => simp only [edits, (h Nat.one_pos).register, memoryOperand_congr (h Nat.one_pos)]
  | literal => simp only [edits, (h Nat.one_pos).immediate, memoryOperand_congr (h Nat.one_pos)]
  | mode6Offset =>
      simp only [edits, reportRegister, (h Nat.one_pos).registerId, (h Nat.one_pos).register,
        (h Nat.one_pos).access]
  -- two fields
  | constantShifted | wideConstantShifted | postRegister | mode2Offset =>
      simp only [edits, (h Nat.two_pos).registerId, (h Nat.two_pos).register,
        (h Nat.two_pos).access, (hNext Nat.one_lt_two).immediate]
  | mode3Offset => exact mode3OffsetEdits_congr (h Nat.two_pos) (hNext Nat.one_lt_two)
  | mode5 | mode5Half =>
      exact mode5Edits_congr hContext (h Nat.two_pos) (hNext Nat.one_lt_two) _ _
  | mode6 | exclusiveOffset =>
      simp only [edits, (h Nat.two_pos).register, (hNext Nat.one_lt_two).immediate,
        memoryOperand_congr (h Nat.two_pos)]
  | signedOffset | shortOffset | shortWordOffset =>
      exact signedOffsetEdits_congr hContext (h Nat.two_pos) (hNext Nat.one_lt_two) _
  | scaledOffset scale =>
      exact scaledOffsetEdits_congr hContext (h Nat.two_pos) (hNext Nat.one_lt_two) scale
  | stackOffset =>
      exact scaledOffsetEdits_congr hContext (h Nat.two_pos) (hNext Nat.one_lt_two) 4
  | indexed =>
      unfold edits
      refine onBase_congr hContext (h Nat.two_pos) fun base => ?_
      rw [(hNext Nat.one_lt_two).register, memoryOperand_congr (h Nat.two_pos)]
  | tableByte | tableHalf | vectorOffsets =>
      simp only [edits, indexedOperand_congr (h Nat.two_pos) (hNext Nat.one_lt_two)]
  -- three fields
  | registerShifted =>
      simp only [edits, (h hZeroThree).register, (h hZeroThree).access,
        (hNext hOneThree).register, (hLast hTwoThree).immediate]
  | mode2 =>
      exact mode2Edits_congr hContext (h hZeroThree) (hNext hOneThree) (hLast hTwoThree)
  | mode3 showZero =>
      exact mode3Edits_congr hContext (h hZeroThree) (hNext hOneThree) (hLast hTwoThree) showZero
  | shiftedIndex =>
      simp only [edits, (hLast hTwoThree).immediate,
        indexedOperand_congr (h hZeroThree) (hNext hOneThree)]

/-- An effect form does the same where its first field is the same. -/
theorem Effects.apply_congr {e e' : Encoded} {i : Nat} (hContext : SameContext e e')
    (h : SameAt e e' i) (fx : Effects) (form : EffectForm) :
    fx.apply e i form = fx.apply e' i form := by
  cases form with
  | flagSetter => simp only [apply, h.registerId]
  | memoryBarrier => simp only [apply, h.immediate, hContext.v8]
  | _ => simp only [apply, h.immediate]

/-! ## Sites -/

/-- The two instructions agree on what the site reads: on its window, or on all fields if
it reads on. -/
def Site.Agrees (e e' : Encoded) : Site → Prop
  | effect form i => e.AgreeOn e' i form.width
  | operand form i => if form.readsOn then e.fields = e'.fields else e.AgreeOn e' i form.width

theorem Site.agrees_of_fields {e e' : Encoded} (h : e.fields = e'.fields) (site : Site) :
    site.Agrees e e' := by
  cases site with
  | effect form i => exact Encoded.agreeOn_of_fields h i form.width
  | operand form i =>
      simp only [Agrees]
      split
      · exact h
      · exact Encoded.agreeOn_of_fields h i form.width

theorem OperandForm.edits_congr_of_agrees {e e' : Encoded} {i : Nat} {form : OperandForm}
    (hContext : SameContext e e') (hAgrees : (Site.operand form i).Agrees e e') :
    form.edits e i = form.edits e' i := by
  simp only [Site.Agrees] at hAgrees
  split at hAgrees
  · next hReadsOn =>
    cases form with
    | registerList => exact registerListEdits_congr hContext hAgrees i
    | _ => contradiction
  · next hWindow => exact edits_congr hContext (by simpa using hWindow) hAgrees

namespace Report

variable {e e' : Encoded}

/-- A visit of a site ends the same way, on every report. -/
theorem visit_congr {site : Site} (hContext : SameContext e e') (hAgrees : site.Agrees e e')
    (report : Report) : report.visit e site = report.visit e' site := by
  cases site with
  | effect form i =>
      have hWidth : 0 < form.width := by cases form <;> decide
      have hField : SameAt e e' i := hContext.sameAt (hAgrees.field hWidth)
      rw [visit, Effects.apply_congr hContext hField, visit]
  | operand form i => rw [visit, form.edits_congr_of_agrees hContext hAgrees, visit]

/-- So does a run over sites. -/
theorem visitAll_congr {sites : List Site} (hContext : SameContext e e')
    (hAgrees : ∀ site ∈ sites, site.Agrees e e') (report : Report) :
    report.visitAll e sites = report.visitAll e' sites := by
  induction sites generalizing report with
  | nil => rfl
  | cons site rest ih =>
      obtain ⟨hFirst, hRest⟩ := List.forall_mem_cons.mp hAgrees
      have hLater : (visitAll e · rest) = (visitAll e' · rest) := funext (ih hRest)
      rw [visitAll, visit_congr hContext hFirst, hLater, visitAll]

/-- And so does filling. -/
theorem fill_congr (hContext : SameContext e e')
    (hAgrees : ∀ site ∈ e.opcode.sites, site.Agrees e e') : fill e = fill e' := by
  have hInitial : initial e = initial e' := by rw [initial, hContext.opcode, initial]
  have hFinish : ∀ report : Report, report.finish e = report.finish e' := by
    intro report
    rw [finish, hContext.opcode, finish]
  have hVisit : ∀ report : Report,
      report.visitAll e e.opcode.sites = report.visitAll e' e'.opcode.sites := by
    intro report
    rw [visitAll_congr hContext hAgrees, hContext.opcode]
  simp only [fill, hInitial, hVisit, hFinish]

end Report

end OperandReport.Arm
