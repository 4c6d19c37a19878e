import Mathlib.Data.Int.ModEq
import OperandReport.Proofs.Power.Address

/-!
# Numbers in fields

A field is as wide as its form says, whatever the decoder left above it.  An unsigned field
shows the residue of the raw immediate in the range from zero, a signed one the residue in the
range around zero, and a branch field counts words, so that its distance is the residue of four
times the immediate, as a signed number of 32 bits.

What is above the field is not seen.  In the table no other site looks at such a field, and the
condition of a branch is not taken from one, so that the whole report depends on the residues
only.  An exact displacement is the exception: it is shown as it is.

## Main results

* `unsignedResidue_iff`, `signedResidue_iff`, `wordDistance_iff`: each residue is the only one.
* `Site.adds_of_completedBy`: what a site adds to the operands.
* `Report.fill_of_congruent`: filling sees a field up to its width.
* `fill_fieldWidth`: both, for every instruction.
-/

namespace OperandReport.Power

/-! ## Residues -/

theorem natCast_two_pow (n : Nat) : ((2 ^ n : Nat) : Int) = 2 ^ n := by
  push_cast
  rfl

/-- An unsigned number of `n` bits that is congruent to `x`. -/
structure UnsignedResidue (n : Nat) (x v : Int) : Prop where
  nonneg : 0 ≤ v
  lt : v < 2 ^ n
  modEq : v ≡ x [ZMOD 2 ^ n]

/-- A signed number of `n` bits that is congruent to `x`. -/
structure SignedResidue (n : Nat) (x v : Int) : Prop where
  le : -2 ^ (n - 1) ≤ v
  lt : v < 2 ^ (n - 1)
  modEq : v ≡ x [ZMOD 2 ^ n]

/-- A distance of whole words, signed and of 32 bits, that is congruent to `x` words. -/
structure WordDistance (x v : Int) : Prop where
  dvd : 4 ∣ v
  le : -2 ^ 31 ≤ v
  lt : v < 2 ^ 31
  modEq : v ≡ 4 * x [ZMOD 2 ^ 32]

/-- The immediate is the only number with the property. -/
def IsOnly (p : Int → Prop) (w : Imm) : Prop := ∀ v, p v ↔ v = w.toInt

theorem unsignedResidue_iff {n : Nat} {x v : Int} : UnsignedResidue n x v ↔ v = x % 2 ^ n := by
  have hPos : (0 : Int) < 2 ^ n := Int.pow_pos (by decide)
  constructor
  · intro h
    rw [← h.modEq, Int.emod_eq_of_lt h.nonneg h.lt]
  · rintro rfl
    exact ⟨Int.emod_nonneg x hPos.ne', Int.emod_lt_of_pos x hPos, Int.mod_modEq x _⟩

theorem signedResidue_iff {n : Nat} {x v : Int} (hn : 1 ≤ n) :
    SignedResidue n x v ↔ v = x.bmod (2 ^ n) := by
  obtain ⟨k, rfl⟩ := Nat.exists_eq_add_of_le' hn
  have hTwice : (2 ^ (k + 1) : Int) = 2 * 2 ^ k := pow_succ' 2 k
  rw [eq_comm, Int.bmod_eq_iff (Nat.pow_pos (by decide)), natCast_two_pow, ← Int.modEq_iff_dvd]
  constructor
  · rintro ⟨hLe, hLt, hModEq⟩
    rw [Nat.add_sub_cancel] at hLe hLt
    exact ⟨by omega, by omega, hModEq.symm⟩
  · rintro ⟨hLe, hLt, hModEq⟩
    refine ⟨?_, ?_, hModEq.symm⟩
    · rw [Nat.add_sub_cancel]
      omega
    · rw [Nat.add_sub_cancel]
      omega

theorem wordDistance_iff {x v : Int} : WordDistance x v ↔ v = (4 * x).bmod 0x100000000 := by
  rw [eq_comm, Int.bmod_eq_iff (by decide)]
  constructor
  · rintro ⟨_, hLe, hLt, hModEq⟩
    have hDvd : (2 ^ 32 : Int) ∣ 4 * x - v := hModEq.dvd
    omega
  · rintro ⟨hLe, hLt, hDvd⟩
    have hModEq : 4 * x ≡ v [ZMOD 2 ^ 32] := Int.modEq_iff_dvd.mpr (by omega)
    -- Both the modulus and the four words are multiples of four.
    exact ⟨by omega, by omega, by omega, hModEq.symm⟩

/-! ## Fields -/

section Fields

variable {n : Nat} {v w : Imm}

/-- The low bits of an immediate, as a signed number. -/
theorem toInt_setWidth_eq_bmod (hn : n ≤ 64) (v : Imm) :
    (v.setWidth n).toInt = v.toInt.bmod (2 ^ n) := by
  rw [BitVec.toInt_setWidth, BitVec.toInt_eq_toNat_bmod v,
    Int.bmod_bmod_of_dvd (Nat.pow_dvd_pow 2 hn)]

theorem toInt_signedField (hn : n ≤ 64) (v : Imm) :
    (signedField n v).toInt = v.toInt.bmod (2 ^ n) := by
  rw [signedField, BitVec.toInt_signExtend_of_le hn, toInt_setWidth_eq_bmod hn]

theorem toInt_unsignedField (hn : n ≤ 62) (v : Imm) :
    (unsignedField n v).toInt = v.toInt % 2 ^ n := by
  have hNumber : (unsignedField n v).toNat = v.toNat % 2 ^ n := by
    have hLt : v.toNat % 2 ^ n < 2 ^ 64 := Nat.lt_of_le_of_lt (Nat.mod_le _ _) v.isLt
    rw [unsignedField, BitVec.toNat_setWidth, BitVec.toNat_setWidth, Nat.mod_eq_of_lt hLt]
  have hSmall : 2 * (unsignedField n v).toNat < 2 ^ 64 := by
    have hLt : v.toNat % 2 ^ n < 2 ^ n := Nat.mod_lt _ (Nat.pow_pos (by decide))
    have hWidth : 2 ^ n ≤ 2 ^ 62 := Nat.pow_le_pow_right (by decide) hn
    omega
  have hSame : v.toInt % 2 ^ n = (v.toNat : Int) % 2 ^ n := by
    have hDvd : (2 ^ n : Int) ∣ ((2 ^ 64 : Nat) : Int) := by
      rw [← natCast_two_pow]
      exact Int.natCast_dvd_natCast.mpr (Nat.pow_dvd_pow 2 (by omega))
    rw [BitVec.toInt_eq_toNat_bmod, ← Int.emod_emod_of_dvd _ hDvd, Int.bmod_emod,
      Int.emod_emod_of_dvd _ hDvd]
  rw [BitVec.toInt_eq_toNat_of_lt hSmall, hNumber, hSame, ← natCast_two_pow]
  rfl

/-! Each field is the only residue of the immediate in its range. -/

theorem isOnly_unsignedField (hn : n ≤ 62) (v : Imm) :
    IsOnly (UnsignedResidue n v.toInt) (unsignedField n v) := by
  intro x
  rw [unsignedResidue_iff, toInt_unsignedField hn]

theorem isOnly_signedField (hPos : 1 ≤ n) (hn : n ≤ 64) (v : Imm) :
    IsOnly (SignedResidue n v.toInt) (signedField n v) := by
  intro x
  rw [signedResidue_iff hPos, toInt_signedField hn]

theorem isOnly_branchOffset (v : Imm) : IsOnly (WordDistance v.toInt) (branchOffset v) := by
  intro x
  rw [wordDistance_iff, toInt_branchOffset, byteDistance]

/-! What is above the field is not seen. -/

theorem unsignedField_congr (hn : n ≤ 62) (h : v.toInt ≡ w.toInt [ZMOD 2 ^ n]) :
    unsignedField n v = unsignedField n w := by
  refine BitVec.eq_of_toInt_eq ?_
  rw [toInt_unsignedField hn, toInt_unsignedField hn, h]

theorem signedField_congr (hn : n ≤ 64) (h : v.toInt ≡ w.toInt [ZMOD 2 ^ n]) :
    signedField n v = signedField n w := by
  refine BitVec.eq_of_toInt_eq ?_
  rw [toInt_signedField hn, toInt_signedField hn, ← Int.emod_bmod, ← Int.emod_bmod w.toInt,
    natCast_two_pow, h]

theorem branchOffset_congr (h : v.toInt ≡ w.toInt [ZMOD 2 ^ 30]) :
    branchOffset v = branchOffset w := by
  have hWords : 4 * v.toInt % 0x100000000 = 4 * w.toInt % 0x100000000 := by
    have hMod : v.toInt % 2 ^ 30 = w.toInt % 2 ^ 30 := h
    omega
  rw [branchOffset_eq, branchOffset_eq, byteDistance, byteDistance, ← Int.emod_bmod,
    ← Int.emod_bmod (4 * w.toInt)]
  exact congrArg (fun x => BitVec.ofInt 64 (Int.bmod x 0x100000000)) hWords

end Fields

/-! ## What the sites add -/

/-- With nothing open and room for the operands, a visit adds just these and changes nothing
else. -/
def Site.Adds (e : Encoded) (site : Site) (ops : List Operand) : Prop :=
  ∀ report : Report, report.operands.isOpen = false →
    report.operands.length + ops.length ≤ operandCapacity →
    (report.visit e site).result = .ok { report with operands := report.operands.extend ops }

theorem Site.adds_of_completedBy {e : Encoded} {form : OperandForm} {i : Nat}
    {ops : List Operand} (h : Edit.completedBy (form.edits e i) = ops) :
    Site.Adds e (.operand form i) ops := by
  subst h
  intro report hClosed hRoom
  have hRest : report.operands.AtRest := ⟨hClosed, Nat.le_trans (Nat.le_add_right _ _) hRoom⟩
  rw [Report.visit_operand hRest, Site.completed, if_pos hRoom]

/-- A displacement with the base at the next field, or alone where that is no register. -/
def displacedOperands (e : Encoded) (i : Nat) (displacement : Imm) : List Operand :=
  if e.isRegister (i + 1) then [memoryOperand e { base := baseAt e (i + 1), displacement }]
  else [.ofImmediate displacement]

/-- Every form that shows a number shows the residue that fits its field. -/
structure ShowsResidues (e : Encoded) : Prop where
  unsigned : ∀ n i, n ≤ 62 → ∃ w : Imm,
    IsOnly (UnsignedResidue n (e.immediate i).toInt) w ∧
      Site.Adds e (.operand (.unsigned n) i) [.ofImmediate w]
  signed : ∀ n i, 1 ≤ n → n ≤ 64 → ∃ w : Imm,
    IsOnly (SignedResidue n (e.immediate i).toInt) w ∧
      Site.Adds e (.operand (.signed n) i) [.ofImmediate w]
  displaced : ∀ i, ∃ w : Imm, IsOnly (SignedResidue 16 (e.immediate i).toInt) w ∧
    Site.Adds e (.operand .displaced i) (displacedOperands e i w)
  displacedFar : ∀ i, ∃ w : Imm, IsOnly (SignedResidue 34 (e.immediate i).toInt) w ∧
    Site.Adds e (.operand .displacedFar i) (displacedOperands e i w)
  displacedFromPc : ∀ i, ∃ w : Imm, IsOnly (SignedResidue 34 (e.immediate i).toInt) w ∧
    Site.Adds e (.operand .displacedFromPc i) [memoryOperand e { displacement := w }]
  displacedExactly : ∀ i,
    Site.Adds e (.operand .displacedExactly i) (displacedOperands e i (e.immediate i))
  branch : ∀ i, ∃ w : Imm, IsOnly (WordDistance (e.immediate i).toInt) w ∧
    Site.Adds e (.operand .absoluteBranch i) [.ofImmediate w] ∧
    ∀ form : OperandForm, form.isRelative = true → e.isImmediate i = true →
      Site.Adds e (.operand form i)
        [.ofImmediate (if e.opcode.absolute then w else addressIn e.mode (e.address + w))]

theorem showsResidues (e : Encoded) : ShowsResidues e where
  unsigned n i hn := ⟨_, isOnly_unsignedField hn _, Site.adds_of_completedBy rfl⟩
  signed n i hPos hn := ⟨_, isOnly_signedField hPos hn _, Site.adds_of_completedBy rfl⟩
  displaced i := ⟨_, isOnly_signedField (by decide) (by decide) _,
    Site.adds_of_completedBy (OperandForm.completed_of_displaced e i rfl)⟩
  displacedFar i := ⟨_, isOnly_signedField (by decide) (by decide) _,
    Site.adds_of_completedBy (OperandForm.completed_of_displaced e i rfl)⟩
  displacedFromPc i :=
    ⟨_, isOnly_signedField (by decide) (by decide) _, Site.adds_of_completedBy rfl⟩
  displacedExactly i := Site.adds_of_completedBy (OperandForm.completed_of_displaced e i rfl)
  branch i := by
    refine ⟨_, isOnly_branchOffset _, Site.adds_of_completedBy rfl, ?_⟩
    intro form hForm hImmediate
    have hEdits : form.edits e i = branchEdits e i := by
      cases form <;> first | rfl | contradiction
    refine Site.adds_of_completedBy ?_
    rw [hEdits, branchEdits, if_pos hImmediate]
    dsimp only
    split
    · rfl
    · rfl

/-! ## What filling sees -/

/-- The width of the immediate field that the form shows.  The one of a branch counts words of
a number of 32 bits. -/
def OperandForm.fieldBits? : OperandForm → Option Nat
  | .unsigned bits | .signed bits => some bits
  | .displaced => some 16
  | .displacedFar | .displacedFromPc => some 34
  | .branch | .absoluteBranch | .annotatedCall => some 30
  | _ => none

/-- The width of the immediate field that the site shows. -/
def Site.fieldBits? : Site → Option Nat
  | operand form _ => form.fieldBits?
  | condition .. => none

/-- The fields of both instructions at the site are immediates that are congruent up to the
width of the field. -/
structure Site.Congruent (e e' : Encoded) (site : Site) : Prop where
  isImmediate : e.isImmediate site.slot = true ∧ e'.isImmediate site.slot = true
  modEq : ∃ n, site.fieldBits? = some n ∧
    (e.immediate site.slot).toInt ≡ (e'.immediate site.slot).toInt [ZMOD 2 ^ n]

/-- Where the two instructions differ, some site shows a congruent immediate. -/
def CongruentFields (e e' : Encoded) : Prop :=
  ∀ k, e.field k ≠ e'.field k → ∃ site ∈ e.opcode.sites, site.slot = k ∧ site.Congruent e e'

section Forms

variable {e e' : Encoded} {i : Nat}

theorem displacedEdits_of_congruent {n : Nat} (hn : n ≤ 64) (hContext : SameContext e e')
    (hNext : e.field (i + 1) = e'.field (i + 1))
    (hModEq : (e.immediate i).toInt ≡ (e'.immediate i).toInt [ZMOD 2 ^ n]) :
    displacedEdits e i (signedField n (e.immediate i)) =
      displacedEdits e' i (signedField n (e'.immediate i)) := by
  rw [signedField_congr hn hModEq, displacedEdits_congr hContext (sameAt_of_field hNext)]

theorem branchEdits_of_congruent (hContext : SameContext e e')
    (hImmediate : e.isImmediate i = true ∧ e'.isImmediate i = true)
    (hModEq : (e.immediate i).toInt ≡ (e'.immediate i).toInt [ZMOD 2 ^ 30]) :
    branchEdits e i = branchEdits e' i := by
  rw [branchEdits, branchEdits, if_pos hImmediate.1, if_pos hImmediate.2,
    branchOffset_congr hModEq, hContext.opcode, hContext.mode, hContext.address]

/-- A form shows the same for both immediates, if its other field is the same. -/
theorem OperandForm.edits_of_congruent {form : OperandForm} (hContext : SameContext e e')
    (hRange : form.inRange = true) (hCongruent : (Site.operand form i).Congruent e e')
    (hNext : 1 < form.width → e.field (i + 1) = e'.field (i + 1)) :
    form.edits e i = form.edits e' i := by
  obtain ⟨hImmediate, n, hBits, hModEq⟩ := hCongruent
  cases form with
  | unsigned =>
      cases hBits
      have hWidth : n < 63 := by simpa [inRange] using hRange
      exact congrArg (fun w => [reportImmediate w])
        (unsignedField_congr (Nat.le_of_lt_succ hWidth) hModEq)
  | signed =>
      cases hBits
      have hWidth : 0 < n ∧ n ≤ 64 := by simpa [inRange] using hRange
      exact congrArg (fun w => [reportImmediate w]) (signedField_congr hWidth.2 hModEq)
  | displaced | displacedFar =>
      cases hBits
      exact displacedEdits_of_congruent (by decide) hContext (hNext Nat.one_lt_two) hModEq
  | displacedFromPc =>
      cases hBits
      have hSame : signedField 34 (e.immediate i) = signedField 34 (e'.immediate i) :=
        signedField_congr (by decide) hModEq
      simp only [edits, hSame, memoryOperand_congr hContext]
  | branch | annotatedCall =>
      cases hBits
      exact branchEdits_of_congruent hContext hImmediate hModEq
  | absoluteBranch =>
      cases hBits
      exact congrArg (fun w => [reportImmediate w]) (branchOffset_congr hModEq)
  | _ => contradiction

end Forms

/-- No other site of the template reads the field that a site of a number shows, and the
condition of the template is not taken from it. -/
def Template.Separates (t : Template) : Prop :=
  ∀ site ∈ t.sites, site.fieldBits?.isSome = true →
    (∀ other ∈ t.sites, other.slot ≤ site.slot → site.slot < other.slot + other.width →
      other = site) ∧
    .slot site.slot ∉ t.conditionSources

instance (t : Template) : Decidable t.Separates :=
  inferInstanceAs (Decidable (∀ site ∈ t.sites, site.fieldBits?.isSome = true →
    (∀ other ∈ t.sites, other.slot ≤ site.slot → site.slot < other.slot + other.width →
      other = site) ∧
    .slot site.slot ∉ t.conditionSources))

/-- Every template of the table keeps its numbers apart. -/
theorem separates_of_mem_templates {t : Template} (ht : t ∈ templates) : t.Separates := by
  have hAll : ∀ t ∈ templates, t.Separates := by decide +kernel
  exact hAll t ht

section Filling

variable {e e' : Encoded}

/-- A field that differs and that a site reads is the one that the site shows. -/
theorem CongruentFields.eq_slot (hFields : CongruentFields e e') (hApart : e.opcode.Separates)
    {site : Site} (hSite : site ∈ e.opcode.sites) {k : Nat} (hFrom : site.slot ≤ k)
    (hTo : k < site.slot + site.width) (hDiffer : e.field k ≠ e'.field k) :
    k = site.slot ∧ site.Congruent e e' := by
  obtain ⟨other, hOther, rfl, hCongruent⟩ := hFields k hDiffer
  obtain ⟨n, hBits, _⟩ := hCongruent.modEq
  have hShows : other.fieldBits?.isSome = true := by rw [hBits]; rfl
  obtain rfl : site = other := (hApart other hOther hShows).1 site hSite hFrom hTo
  exact ⟨rfl, hCongruent⟩

/-- The condition of the template is the same for both. -/
theorem CongruentFields.conditionSources (hFields : CongruentFields e e')
    (hApart : e.opcode.Separates) :
    ∀ source ∈ e.opcode.conditionSources, source.Agrees e e' := by
  intro source hSource
  cases source with
  | constant n => trivial
  | slot k =>
      refine Classical.byContradiction fun hDiffer => ?_
      obtain ⟨site, hSite, rfl, hCongruent⟩ := hFields k hDiffer
      obtain ⟨n, hBits, _⟩ := hCongruent.modEq
      have hShows : site.fieldBits?.isSome = true := by rw [hBits]; rfl
      exact (hApart site hSite hShows).2 hSource

namespace Report

/-- A visit of any site ends the same way for both: either the site reads the same fields, or
it shows a congruent immediate. -/
theorem visit_of_congruent (hContext : SameContext e e') (hTable : e.opcode ∈ templates)
    (hFields : CongruentFields e e') {site : Site} (hSite : site ∈ e.opcode.sites)
    (report : Report) : report.visit e site = report.visit e' site := by
  have hApart := separates_of_mem_templates hTable
  by_cases hCongruent : site.Congruent e e'
  · cases site with
    | condition form i =>
        obtain ⟨n, hBits, _⟩ := hCongruent.modEq
        contradiction
    | operand form i =>
        have hRange := (inRange_of_mem_templates hTable _ hSite).width form i rfl
        have hNext : 1 < form.width → e.field (i + 1) = e'.field (i + 1) := by
          intro hWide
          refine Classical.byContradiction fun hDiffer => ?_
          have hSlot := (hFields.eq_slot hApart hSite (Nat.le_succ i)
            (Nat.add_lt_add_left hWide i) hDiffer).1
          exact Nat.succ_ne_self i hSlot
        rw [visit, OperandForm.edits_of_congruent hContext hRange hCongruent hNext, visit]
  · refine visit_congr hContext (fun k hFrom hTo => ?_) report
    refine Classical.byContradiction fun hDiffer => ?_
    exact hCongruent (hFields.eq_slot hApart hSite hFrom hTo hDiffer).2

/-- Filling sees no more of a number than its field holds. -/
theorem fill_of_congruent (hContext : SameContext e e') (hTable : e.opcode ∈ templates)
    (hFields : CongruentFields e e') : fill e = fill e' := by
  have hApart := separates_of_mem_templates hTable
  exact fill_eq_of_visit hContext.opcode
    (Condition.ofTemplate_congr hContext (hFields.conditionSources hApart))
    fun _ hSite report => visit_of_congruent hContext hTable hFields hSite report

end Report

end Filling

/-- The number that a field shows is the only residue of the raw immediate in its range; an
exact displacement is shown as it is.  So two accepted instructions that differ in congruent
immediates only are filled with the same report, whatever their address and mode. -/
theorem fill_fieldWidth (e : Encoded) :
    ShowsResidues e ∧
      ∀ (fields : List Field) (insn other : Instruction), e.opcode ∈ templates →
        Instruction.build e true = .ok insn →
        Instruction.build { e with fields } true = .ok other →
        CongruentFields e { e with fields } →
        ∃ report : Report, (insn.take .fill).result = .ok { insn with report := some report } ∧
          (other.take .fill).result = .ok { other with report := some report } ∧
          Report.fill e = Report.fill { e with fields } := by
  refine ⟨showsResidues e, ?_⟩
  intro fields insn other hTable hBuild hOther hFields
  have hSame := Report.fill_of_congruent (sameContext_fields e fields) hTable hFields
  obtain ⟨report, hFill, _⟩ := Report.fill_progress (wellFormed_of_mem_templates hTable)
  obtain rfl := eq_ofEncoded_of_build hBuild
  obtain rfl := eq_ofEncoded_of_build hOther
  refine ⟨report, congrArg (Except.map _) hFill, ?_, hSame⟩
  exact congrArg (Except.map _) (hSame ▸ hFill)

/-- A rotation by three bits under a mask that ends at the last bit.  The decoder left the sign
of one field above it. -/
def rotateUnderMask : Encoded where
  opcode := (templates.find? (·.name == "RLWINM")).get (by decide +kernel)
  fields := [.register 33, .register 34, .immediate 3, .immediate 0, .immediate (-1)]

/-- The same rotation, with other bits above all three fields. -/
def wideRotateUnderMask : Encoded :=
  { rotateUnderMask with
    fields := [.register 33, .register 34, .immediate 35, .immediate (-32), .immediate 31] }

/-- The end of the mask is shown as 31, and the two rotations give the same report. -/
theorem fill_rotateUnderMask :
    (∃ w : Imm, w.toInt = 31 ∧
      Site.Adds rotateUnderMask (.operand (.unsigned 5) 4) [.ofImmediate w]) ∧
    rotateUnderMask.opcode ∈ templates ∧
    Instruction.build rotateUnderMask true =
      .ok { rotateUnderMask with report := some (default : Report) } ∧
    Instruction.build wideRotateUnderMask true =
      .ok { wideRotateUnderMask with report := some (default : Report) } ∧
    ∃ report : Report,
      (Instruction.take { rotateUnderMask with report := some (default : Report) }
        .fill).result = .ok { rotateUnderMask with report := some report } ∧
      (Instruction.take { wideRotateUnderMask with report := some (default : Report) }
        .fill).result = .ok { wideRotateUnderMask with report := some report } := by
  obtain ⟨hShows, hSame⟩ := fill_fieldWidth rotateUnderMask
  have hTable : rotateUnderMask.opcode ∈ templates := by
    dsimp only [rotateUnderMask]
    exact List.get_find?_mem _
  have hBuild : Instruction.build rotateUnderMask true =
      .ok { rotateUnderMask with report := some (default : Report) } := rfl
  have hWide : Instruction.build wideRotateUnderMask true =
      .ok { wideRotateUnderMask with report := some (default : Report) } := rfl
  have hFields : CongruentFields rotateUnderMask wideRotateUnderMask := by
    intro k hDiffer
    match k with
    | 0 | 1 => exact absurd rfl hDiffer
    | 2 =>
        exact ⟨.operand (.unsigned 5) 2, by decide +kernel, rfl, ⟨rfl, rfl⟩, 5, rfl, by decide⟩
    | 3 =>
        exact ⟨.operand (.unsigned 5) 3, by decide +kernel, rfl, ⟨rfl, rfl⟩, 5, rfl, by decide⟩
    | 4 =>
        exact ⟨.operand (.unsigned 5) 4, by decide +kernel, rfl, ⟨rfl, rfl⟩, 5, rfl, by decide⟩
    | k + 5 => exact absurd rfl hDiffer
  obtain ⟨w, hOnly, hAdds⟩ := hShows.unsigned 5 4 (by decide)
  obtain ⟨report, hFill, hOther, _⟩ := hSame _ _ _ hTable hBuild hWide hFields
  refine ⟨⟨w, ((hOnly 31).mp ⟨by decide, by decide, by decide⟩).symm, hAdds⟩, hTable, hBuild,
    hWide, report, hFill, hOther⟩

end OperandReport.Power
