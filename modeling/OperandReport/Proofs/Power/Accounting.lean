import OperandReport.Proofs.Power.Implicit
import OperandReport.Proofs.Usage
import OperandReport.Proofs.Window

/-!
# Where the register summary comes from

The slots of a template say which fields are read and which are written.  The summary of a
filled report is made from the operands, and those from the sites.  The two meet in the
roles that sites give to slots: a slot is shown on its own, or it is the base or the index
of a memory operand (`Site.roles`).

A register of a field is accounted for by the role of its slot.  One that is shown comes
with the access of the slot; a base is read, and written too if the address is written
back, but a base that reads as zero is none; an index is read (`mem_accesses_completed`).

What makes the summary complete is a matter of the table, `Template.Accounted`: every
register slot that is read has a role, and one that is written is shown, or a base is tied
to it that is written back.

## Main results

* `mem_accesses_completed`: the registers of one site.
* `accounted_of_mem_templates`: what the table promises.
* `mem_usage_of_screened`: the summary in terms of the slots.
-/

namespace OperandReport.Power

/-! ## Roles -/

/-- What a site makes of a register field. -/
inductive Role where
  /-- an operand of its own -/
  | shown
  /-- the base of a memory operand -/
  | base
  /-- the index of a memory operand -/
  | index
  deriving DecidableEq, Repr

/-- The slots in which the site expects registers, with what it makes of them. -/
def Site.roles : Site → List (Nat × Role)
  | .operand .plain i | .operand .branch i | .operand .annotatedCall i
  | .operand .conditionField i => [(i, .shown)]
  | .operand .predicateRegister i => [(i + 1, .shown)]
  | .operand .indexed i => [(i, .base), (i + 1, .index)]
  | .operand .displaced i | .operand .displacedExactly i | .operand .displacedFar i =>
    [(i + 1, .base)]
  | _ => []

namespace Template

/-- Some site of the template gives the role to the slot. -/
def HasRole (t : Template) (role : Role) (s : Nat) : Prop := (s, role) ∈ t.sites.flatMap Site.roles

instance (t : Template) (role : Role) (s : Nat) : Decidable (t.HasRole role s) :=
  inferInstanceAs (Decidable ((s, role) ∈ t.sites.flatMap Site.roles))

/-- The slot that slot `s` has to equal. -/
def tie? (t : Template) (s : Nat) : Option Nat := t.slots[s]?.bind Slot.tiedTo

/-- The base of a memory operand has to equal slot `s`. -/
def BaseTiedTo (t : Template) (s : Nat) : Prop :=
  ∃ b ∈ t.sites.flatMap Site.roles, b.2 = .base ∧ t.tie? b.1 = some s

instance (t : Template) (s : Nat) : Decidable (t.BaseTiedTo s) :=
  inferInstanceAs
    (Decidable (∃ b ∈ t.sites.flatMap Site.roles, b.2 = .base ∧ t.tie? b.1 = some s))

/-- What slot `s` shows of a register: the vector-scalar register over it where the slot
holds one. -/
def shownAs (t : Template) (s : Nat) (r : Register) : Register :=
  if s ∈ t.vectorScalarSlots then r.vectorScalar else r

end Template

/-- The register that slot `s` contributes to the summary in a role, and its access there. -/
def Role.Gives (e : Encoded) (writeback : Bool) (s : Nat) (x : Register) (a : Access) :
    Role → Prop
  | .shown => (registerAt e s).isSome = true ∧ x = reportedRegister e s ∧ a = accessAt e s
  | .base =>
    (baseAt e s).isSome = true ∧ x = baseAt e s ∧ a = if writeback then .both else .reads
  | .index => (registerAt e s).isSome = true ∧ x = registerAt e s ∧ a = .reads

/-! ## Operands -/

namespace Operand

/-- The registers of an operand, each with the access that the summary records. -/
def accesses (writeback : Bool) (op : Operand) : List (Register × Access) :=
  match op.value with
  | .register r => [(r, op.access)]
  | .memory m =>
    (if m.base.isSome then [(m.base, if writeback then .both else .reads)] else []) ++
      (if m.index.isSome then [(m.index, .reads)] else [])
  | _ => []

theorem readRegisters_eq (writeback : Bool) (op : Operand) :
    op.readRegisters = ((op.accesses writeback).filter (·.2.read)).map Prod.fst := by
  unfold readRegisters accesses
  cases op.value with
  | register r => cases hRead : op.access.read <;> simp [hRead]
  | memory m =>
      dsimp only
      cases m.base.isSome <;> cases m.index.isSome <;> cases writeback <;> rfl
  | _ => rfl

theorem writtenRegisters_eq (writeback : Bool) (op : Operand) :
    op.writtenRegisters writeback =
      ((op.accesses writeback).filter (·.2.write)).map Prod.fst := by
  unfold writtenRegisters accesses
  cases op.value with
  | register r => cases hWrite : op.access.write <;> simp [hWrite]
  | memory m =>
      dsimp only
      cases m.base.isSome <;> cases m.index.isSome <;> cases writeback <;> rfl
  | _ => rfl

end Operand

/-! ## Sites -/

/-- What is not a register field gives no register. -/
theorem isRegister_of_isSome {e : Encoded} {i : Nat} (h : (registerAt e i).isSome = true) :
    e.isRegister i = true := by
  cases hField : e.field i with
  | register id => simp [Encoded.isRegister, hField]
  | _ => simp [registerAt, Encoded.registerId, hField, Register.ofId?, Register.isSome] at h

/-- A base that is some register is the register of its field, which does not read as
zero. -/
theorem isSome_baseAt_iff {e : Encoded} {i : Nat} :
    (baseAt e i).isSome = true ↔
      (registerAt e i).isSome = true ∧ (registerAt e i).readsAsZero = false := by
  unfold baseAt
  cases hZero : (registerAt e i).readsAsZero with
  | true => simp [Register.isSome, Register.none]
  | false => simp

theorem baseAt_of_isSome {e : Encoded} {i : Nat} (h : (baseAt e i).isSome = true) :
    baseAt e i = registerAt e i := by
  have hReads := (isSome_baseAt_iff.mp h).2
  simp [baseAt, hReads]

section Sites

variable {e : Encoded} {writeback : Bool} {x : Register} {a : Access}

/-- Where no register is found, none is shown. -/
theorem isSome_of_isSome_reportedRegister {i : Nat} (h : (reportedRegister e i).isSome = true) :
    (registerAt e i).isSome = true := by
  cases hSome : (registerAt e i).isSome with
  | true => rfl
  | false =>
      have hZero : registerAt e i = ⟨0⟩ := by
        have hId : (registerAt e i).id = 0 := by simpa [Register.isSome] using hSome
        exact congrArg Register.mk hId
      rw [reportedRegister, hZero] at h
      split at h
      · contradiction
      · contradiction

/-- A register field on its own. -/
theorem mem_accesses_registerEdits {i : Nat} (hx : x.isSome = true) :
    (x, a) ∈ (Edit.completedBy (registerEdits e i)).flatMap (Operand.accesses writeback) ↔
      Role.shown.Gives e writeback i x a := by
  rw [completedBy_registerEdits]
  simp only [List.flatMap_singleton, Operand.accesses, List.mem_singleton, Prod.mk.injEq,
    Role.Gives]
  constructor
  · rintro ⟨rfl, rfl⟩
    exact ⟨isSome_of_isSome_reportedRegister hx, rfl, rfl⟩
  · exact And.right

/-- A field that is no register gives none in any role. -/
theorem not_gives_of_isRegister {i : Nat} (role : Role) (h : e.isRegister i = false) :
    ¬ role.Gives e writeback i x a := by
  have hNone : ¬ (registerAt e i).isSome = true := by
    intro hSome
    rw [isRegister_of_isSome hSome] at h
    contradiction
  cases role with
  | shown | index => exact fun hGives => hNone hGives.1
  | base => exact fun hGives => hNone (isSome_baseAt_iff.mp hGives.1).1

/-- A field on its own. -/
theorem mem_accesses_plainEdits {i : Nat} (hx : x.isSome = true) :
    (x, a) ∈ (Edit.completedBy (plainEdits e i)).flatMap (Operand.accesses writeback) ↔
      Role.shown.Gives e writeback i x a := by
  unfold plainEdits
  cases hField : e.field i with
  | vacant =>
      have hNot : e.isRegister i = false := by simp [Encoded.isRegister, hField]
      simpa using not_gives_of_isRegister .shown hNot
  | immediate v =>
      have hNot : e.isRegister i = false := by simp [Encoded.isRegister, hField]
      simpa [reportImmediate, Edit.completed, Operand.accesses, Operand.ofImmediate] using
        not_gives_of_isRegister .shown hNot
  | register id =>
      by_cases hZero : id = 0
      · have hNone : registerAt e i = ⟨0⟩ := by
          simp [registerAt, Encoded.registerId, hField, hZero, Register.ofId?]
        simp [hZero, Role.Gives, hNone, Register.isSome]
      · simpa [hZero] using mem_accesses_registerEdits hx

/-- The register of a predicate, which is left out if there is none. -/
theorem mem_accesses_predicateRegister {i : Nat} (hx : x.isSome = true) :
    (x, a) ∈ (Edit.completedBy (OperandForm.predicateRegister.edits e i)).flatMap
        (Operand.accesses writeback) ↔ Role.shown.Gives e writeback (i + 1) x a := by
  show (x, a) ∈ (Edit.completedBy (if e.registerId (i + 1) = 0 then []
    else registerEdits e (i + 1))).flatMap _ ↔ _
  split
  · next hZero =>
    have hNone : registerAt e (i + 1) = ⟨0⟩ := by simp [registerAt, hZero, Register.ofId?]
    simp [Role.Gives, hNone, Register.isSome]
  · exact mem_accesses_registerEdits hx

/-- A branch target, which is a register at most where it is no immediate. -/
theorem mem_accesses_branchEdits {i : Nat} (hx : x.isSome = true) :
    (x, a) ∈ (Edit.completedBy (branchEdits e i)).flatMap (Operand.accesses writeback) ↔
      Role.shown.Gives e writeback i x a := by
  unfold branchEdits
  cases hImmediate : e.isImmediate i with
  | false => exact mem_accesses_plainEdits hx
  | true =>
      have hNot : e.isRegister i = false := by
        unfold Encoded.isImmediate at hImmediate
        unfold Encoded.isRegister
        split at hImmediate
        · next hField => rw [hField]
        · contradiction
      have hNone : ¬ Role.shown.Gives e writeback i x a := not_gives_of_isRegister .shown hNot
      cases e.opcode.absolute <;>
        simpa [reportImmediate, Edit.completed, Operand.accesses, Operand.ofImmediate] using hNone

/-- The registers of a memory operand. -/
theorem mem_accesses_memoryOperand {m : Memory} :
    (x, a) ∈ (memoryOperand e m).accesses writeback ↔
      (m.base.isSome = true ∧ x = m.base ∧ a = if writeback then .both else .reads) ∨
        (m.index.isSome = true ∧ x = m.index ∧ a = .reads) := by
  simp only [Operand.accesses, memoryOperand, List.mem_append, List.mem_ite_nil_right,
    List.mem_singleton, Prod.mk.injEq]

/-- A base behind a displacement. -/
theorem mem_accesses_displaced {i : Nat} {form : OperandForm} (h : form.isDisplaced = true) :
    (x, a) ∈ (Edit.completedBy (form.edits e i)).flatMap (Operand.accesses writeback) ↔
      Role.base.Gives e writeback (i + 1) x a := by
  rw [form.completed_of_displaced e i h]
  cases hBase : e.isRegister (i + 1) with
  | true =>
      rw [if_pos rfl, List.flatMap_singleton, mem_accesses_memoryOperand]
      simp [Role.Gives, Register.isSome, Register.none]
  | false =>
      simpa [Operand.accesses, Operand.ofImmediate] using not_gives_of_isRegister .base hBase

/-- A base and an index; without a base both fields stand on their own, and what the second
one shows there has to be what it would be as an index. -/
theorem mem_accesses_indexed {i : Nat} (hx : x.isSome = true)
    (hShown : i + 1 ∉ e.opcode.vectorScalarSlots) (hAccess : accessAt e (i + 1) = .reads) :
    (x, a) ∈ (Edit.completedBy (OperandForm.indexed.edits e i)).flatMap
        (Operand.accesses writeback) ↔
      Role.base.Gives e writeback i x a ∨ Role.index.Gives e writeback (i + 1) x a := by
  rw [OperandForm.completed_of_indexed e i]
  cases hBase : e.isRegister i with
  | true =>
      rw [if_pos rfl, List.flatMap_singleton, mem_accesses_memoryOperand]
      rfl
  | false =>
      have hSame : Role.index.Gives e writeback (i + 1) x a ↔
          Role.shown.Gives e writeback (i + 1) x a := by
        simp only [Role.Gives, reportedRegister, if_neg hShown, hAccess]
      rw [if_neg Bool.false_ne_true, List.flatMap_append, List.mem_append,
        ← completedBy_plainEdits, ← completedBy_plainEdits, mem_accesses_plainEdits hx,
        mem_accesses_plainEdits hx, hSame,
        iff_false_intro (not_gives_of_isRegister .shown hBase),
        iff_false_intro (not_gives_of_isRegister .base hBase)]

/-- With one slot in one role there is nothing to choose. -/
theorem exists_role_iff (s : Nat) (role : Role) :
    (∃ s' role', (s', role') ∈ [(s, role)] ∧ role'.Gives e writeback s' x a) ↔
      role.Gives e writeback s x a := by
  constructor
  · rintro ⟨_, _, hMem, hGives⟩
    cases List.mem_singleton.mp hMem
    exact hGives
  · exact fun hGives => ⟨s, role, List.mem_singleton_self _, hGives⟩

/-- The registers of a site are those that its slots give in their roles. -/
theorem mem_accesses_completed {site : Site} (hx : x.isSome = true)
    (hIndex : ∀ s, (s, .index) ∈ site.roles →
      s ∉ e.opcode.vectorScalarSlots ∧ accessAt e s = .reads) :
    (x, a) ∈ (site.completed e).flatMap (Operand.accesses writeback) ↔
      ∃ s role, (s, role) ∈ site.roles ∧ role.Gives e writeback s x a := by
  cases site with
  | condition form i => simp [Site.completed, Site.roles]
  | operand form i =>
      cases form with
      | plain => exact (mem_accesses_plainEdits hx).trans (exists_role_iff i .shown).symm
      | conditionField =>
          exact (mem_accesses_registerEdits hx).trans (exists_role_iff i .shown).symm
      | branch | annotatedCall =>
          exact (mem_accesses_branchEdits hx).trans (exists_role_iff i .shown).symm
      | predicateRegister =>
          exact (mem_accesses_predicateRegister hx).trans (exists_role_iff (i + 1) .shown).symm
      | displaced | displacedExactly | displacedFar =>
          exact (mem_accesses_displaced rfl).trans (exists_role_iff (i + 1) .base).symm
      | indexed =>
          obtain ⟨hShown, hAccess⟩ := hIndex (i + 1) (by simp [Site.roles])
          refine (mem_accesses_indexed hx hShown hAccess).trans ?_
          rw [← exists_role_iff i .base, ← exists_role_iff (i + 1) .index]
          simp only [Site.roles, List.mem_cons, List.not_mem_nil, or_false, or_and_right, exists_or]
      | displacedFromPc => simp [Site.completed, Site.roles, OperandForm.edits, Edit.completed,
          Operand.accesses, memoryOperand, Register.isSome, Register.none]
      | unsigned | signed | absoluteBranch => simp [Site.completed, Site.roles,
          OperandForm.edits, reportImmediate, Edit.completed, Operand.accesses, Operand.ofImmediate]
      | zero =>
          simp only [Site.completed, OperandForm.edits]
          split <;>
            simp [Site.roles, reportImmediate, Edit.completed, Operand.accesses,
              Operand.ofImmediate]

end Sites

/-! ## The table -/

namespace Template

/-- The slot may hold a register. -/
def HoldsRegister (t : Template) (s : Nat) : Prop :=
  (t.slots.describe s).kind = .register ∨ (t.slots.describe s).kind = .memoryRegister

instance (t : Template) (s : Nat) : Decidable (t.HoldsRegister s) :=
  inferInstanceAs (Decidable (_ ∨ _))

/-- What a slot has to be like for a role.  A slot that is shown keeps its access and is not
a base, and no base is tied to it; a base and an index are read, and a base that is written
back is tied to the slot that stands for the result. -/
def Suits (t : Template) (s : Nat) : Role → Prop
  | .shown =>
    t.slots.access s = (t.slots.describe s).access ∧ ¬ t.HasRole .base s ∧ ¬ t.BaseTiedTo s
  | .base =>
    (t.slots.describe s).access = .reads ∧ s ∉ t.vectorScalarSlots ∧
      (t.writeback = true → (t.tie? s).isSome = true)
  | .index =>
    (t.slots.describe s).access = .reads ∧ t.slots.access s = .reads ∧
      s ∉ t.vectorScalarSlots ∧ ¬ t.HasRole .base s

instance (t : Template) (s : Nat) (role : Role) : Decidable (t.Suits s role) :=
  match role with
  | .shown => inferInstanceAs (Decidable (_ ∧ _))
  | .base => inferInstanceAs (Decidable (_ ∧ _))
  | .index => inferInstanceAs (Decidable (_ ∧ _))

/-- Every slot with a role suits it.  A register slot that is read has a role; one that is
written is shown, or a base is tied to it, and then the base is written back. -/
structure Accounted (t : Template) : Prop where
  roles : ∀ p ∈ t.sites.flatMap Site.roles, t.Suits p.1 p.2
  reads : ∀ s < t.slots.length, t.HoldsRegister s → (t.slots.describe s).access.read = true →
    t.HasRole .shown s ∨ t.HasRole .base s ∨ t.HasRole .index s
  writes : ∀ s < t.slots.length, t.HoldsRegister s → (t.slots.describe s).access.write = true →
    t.HasRole .shown s ∨ t.BaseTiedTo s
  tied : ∀ s < t.slots.length, t.BaseTiedTo s →
    t.writeback = true ∧ (t.slots.describe s).access.write = true ∧ s ∉ t.vectorScalarSlots

theorem Accounted.suits {t : Template} {s : Nat} {role : Role} (h : t.Accounted)
    (hRole : t.HasRole role s) : t.Suits s role :=
  h.roles (s, role) hRole

end Template

/-- The table accounts for its register slots. -/
theorem accounted_of_mem_templates {t : Template} (ht : t ∈ templates) : t.Accounted := by
  have hRoles : ∀ t ∈ templates, ∀ p ∈ t.sites.flatMap Site.roles, t.Suits p.1 p.2 := by
    decide +kernel
  have hReads : ∀ t ∈ templates, ∀ s < t.slots.length, t.HoldsRegister s →
      (t.slots.describe s).access.read = true →
      t.HasRole .shown s ∨ t.HasRole .base s ∨ t.HasRole .index s := by
    decide +kernel
  have hWrites : ∀ t ∈ templates, ∀ s < t.slots.length, t.HoldsRegister s →
      (t.slots.describe s).access.write = true → t.HasRole .shown s ∨ t.BaseTiedTo s := by
    decide +kernel
  have hTied : ∀ t ∈ templates, ∀ s < t.slots.length, t.BaseTiedTo s →
      t.writeback = true ∧ (t.slots.describe s).access.write = true ∧
        s ∉ t.vectorScalarSlots := by
    decide +kernel
  exact ⟨hRoles t ht, hReads t ht, hWrites t ht, hTied t ht⟩

/-! ## Fields -/

/-- Field `s` names a register. -/
def Holds (e : Encoded) (s : Nat) (r : Register) : Prop :=
  r.isSome = true ∧ e.field s = .register r.id

/-- A register that is found at a field is named by it. -/
theorem holds_registerAt {e : Encoded} {s : Nat} (h : (registerAt e s).isSome = true) :
    Holds e s (registerAt e s) := by
  have hRegister := isRegister_of_isSome h
  cases hField : e.field s with
  | register id =>
      cases hKnown : (Register.ofId? id).isSome with
      | false =>
          have hNone : Register.ofId? id = Option.none := by simpa using hKnown
          simp [registerAt, Encoded.registerId, hField, hNone, Register.isSome, Register.none] at h
      | true =>
          have hAt := registerAt_of_field hField hKnown
          exact ⟨h, by rw [hAt, hField]⟩
  | _ => simp [Encoded.isRegister, hField] at hRegister

/-- In a screened instruction the register that a field names is found there, and its slot
may hold it. -/
theorem Holds.of_build {e : Encoded} {detail : Bool} {insn : Instruction} {s : Nat}
    {r : Register} (h : Holds e s r) (hBuild : Instruction.build e detail = .ok insn) :
    registerAt e s = r ∧ s < e.opcode.slots.length ∧ e.opcode.HoldsRegister s := by
  obtain ⟨_, hScreen, _⟩ := map_eq_ok_iff.mp hBuild
  have hSuits := misfit?_of_screen hScreen s
  rw [show e.fields.getD s .vacant = .register r.id from h.2, misfit?_register_eq_none_iff]
    at hSuits
  obtain ⟨hKnown, hKind⟩ := hSuits
  have hBound : s < e.fields.length := by
    refine Nat.lt_of_not_le fun hOut => ?_
    have hVacant := Encoded.field_eq_vacant hOut
    rw [h.2] at hVacant
    contradiction
  rw [length_of_build hBuild] at hBound
  exact ⟨registerAt_of_field h.2 hKnown, hBound, hKind⟩

/-! ## The summary -/

/-- Some slot that is read holds a register which shows as `x`; a base that reads as zero
does not count. -/
def ReadsField (e : Encoded) (x : Register) : Prop :=
  ∃ s r, (e.opcode.slots.describe s).access.read = true ∧ Holds e s r ∧
    x = e.opcode.shownAs s r ∧ ¬ (e.opcode.HasRole .base s ∧ r.readsAsZero = true)

/-- Some slot that is written holds a register which shows as `x`; a register that reads as
zero does not count where a base is tied to the slot. -/
def WritesField (e : Encoded) (x : Register) : Prop :=
  ∃ s r, (e.opcode.slots.describe s).access.write = true ∧ Holds e s r ∧
    x = e.opcode.shownAs s r ∧ ¬ (e.opcode.BaseTiedTo s ∧ r.readsAsZero = true)

/-- Tied slots hold the same field. -/
def HonoursTies (e : Encoded) : Prop := ∀ s target, e.opcode.tie? s = some target →
  e.field s = e.field target

/-- The access that a slot has in the summary in a role. -/
def Role.summaryAccess (t : Template) (s : Nat) : Role → Access
  | .shown => (t.slots.describe s).access
  | .base => if t.writeback then .both else .reads
  | .index => .reads

section Summary

variable {e : Encoded} {x : Register}

/-- What a slot gives in its role: the register of its field, as the slot shows it. -/
theorem Role.gives_iff {s : Nat} {role : Role} {a : Access} (hAccounted : e.opcode.Accounted)
    (hRole : e.opcode.HasRole role s) :
    role.Gives e e.opcode.writeback s x a ↔
      (registerAt e s).isSome = true ∧ x = e.opcode.shownAs s (registerAt e s) ∧
        (role = .base → (registerAt e s).readsAsZero = false) ∧
        a = role.summaryAccess e.opcode s := by
  have hSuits := hAccounted.suits hRole
  cases role with
  | shown =>
      have hAccess : accessAt e s = (e.opcode.slots.describe s).access := hSuits.1
      simp [Gives, summaryAccess, reportedRegister, Template.shownAs, hAccess]
  | base =>
      have hShown : e.opcode.shownAs s (registerAt e s) = registerAt e s := if_neg hSuits.2.1
      constructor
      · rintro ⟨hSome, rfl, rfl⟩
        obtain ⟨hRegister, hReads⟩ := isSome_baseAt_iff.mp hSome
        exact ⟨hRegister, (baseAt_of_isSome hSome).trans hShown.symm, fun _ => hReads, rfl⟩
      · rintro ⟨hRegister, rfl, hReads, rfl⟩
        have hSome := isSome_baseAt_iff.mpr ⟨hRegister, hReads rfl⟩
        exact ⟨hSome, hShown.trans (baseAt_of_isSome hSome).symm, rfl⟩
  | index =>
      have hShown : e.opcode.shownAs s (registerAt e s) = registerAt e s := if_neg hSuits.2.2.1
      simp [Gives, summaryAccess, hShown]

/-- The registers that slots give for reading are those of the slots that are read. -/
theorem exists_gives_read_iff {detail : Bool} {insn : Instruction}
    (hAccounted : e.opcode.Accounted) (hBuild : Instruction.build e detail = .ok insn) :
    (∃ a, (∃ s role, e.opcode.HasRole role s ∧ role.Gives e e.opcode.writeback s x a) ∧
      a.read = true) ↔ ReadsField e x := by
  constructor
  · rintro ⟨a, ⟨s, role, hRole, hGives⟩, hRead⟩
    obtain ⟨hSome, hShown, hZero, rfl⟩ := (Role.gives_iff hAccounted hRole).mp hGives
    have hSuits := hAccounted.suits hRole
    refine ⟨s, _, ?_, holds_registerAt hSome, hShown, ?_⟩
    · cases role with
      | shown => exact hRead
      | base | index => rw [hSuits.1]; rfl
    · rintro ⟨hBase, hReads⟩
      cases role with
      | shown => exact hSuits.2.1 hBase
      | base =>
          rw [hZero rfl] at hReads
          contradiction
      | index => exact hSuits.2.2.2 hBase
  · rintro ⟨s, r, hRead, hHolds, hShown, hNot⟩
    obtain ⟨rfl, hBound, hRegister⟩ := hHolds.of_build hBuild
    have hGiven : ∀ role, e.opcode.HasRole role s →
        (role.summaryAccess e.opcode s).read = true →
        ∃ a, (∃ s role, e.opcode.HasRole role s ∧ role.Gives e e.opcode.writeback s x a) ∧
          a.read = true := by
      intro role hRole hAccess
      refine ⟨_, ⟨s, role, hRole, (Role.gives_iff hAccounted hRole).mpr ?_⟩, hAccess⟩
      refine ⟨hHolds.1, hShown, ?_, rfl⟩
      rintro rfl
      exact Bool.eq_false_iff.mpr fun hReads => hNot ⟨hRole, hReads⟩
    rcases hAccounted.reads s hBound hRegister hRead with hRole | hRole | hRole
    · exact hGiven .shown hRole hRead
    · refine hGiven .base hRole ?_
      simp only [Role.summaryAccess]
      split <;> rfl
    · exact hGiven .index hRole rfl

/-- The registers that slots give for writing are those of the slots that are written: the
slot of the result of an address that is written back is made up for by the base. -/
theorem exists_gives_write_iff {detail : Bool} {insn : Instruction}
    (hAccounted : e.opcode.Accounted) (hBuild : Instruction.build e detail = .ok insn)
    (hTies : HonoursTies e) :
    (∃ a, (∃ s role, e.opcode.HasRole role s ∧ role.Gives e e.opcode.writeback s x a) ∧
      a.write = true) ↔ WritesField e x := by
  constructor
  · rintro ⟨a, ⟨s, role, hRole, hGives⟩, hWrite⟩
    obtain ⟨hSome, hShown, hZero, rfl⟩ := (Role.gives_iff hAccounted hRole).mp hGives
    have hSuits := hAccounted.suits hRole
    cases role with
    | index => contradiction
    | shown => exact ⟨s, _, hWrite, holds_registerAt hSome, hShown, fun h => hSuits.2.2 h.1⟩
    | base =>
        have hBack : e.opcode.writeback = true := by
          cases hBack : e.opcode.writeback with
          | true => rfl
          | false =>
              rw [Role.summaryAccess, hBack] at hWrite
              contradiction
        obtain ⟨target, hTie⟩ := Option.isSome_iff_exists.mp (hSuits.2.2 hBack)
        have hHere := holds_registerAt hSome
        have hThere : Holds e target (registerAt e s) :=
          ⟨hSome, (hTies s target hTie).symm.trans hHere.2⟩
        have hTied : e.opcode.BaseTiedTo target := ⟨(s, .base), hRole, rfl, hTie⟩
        obtain ⟨_, hWritten, hPlain⟩ :=
          hAccounted.tied target (hThere.of_build hBuild).2.1 hTied
        refine ⟨target, _, hWritten, hThere, ?_, fun h => ?_⟩
        · rw [hShown, Template.shownAs, if_neg hSuits.2.1, Template.shownAs, if_neg hPlain]
        · rw [hZero rfl] at h
          exact Bool.false_ne_true h.2
  · rintro ⟨s, r, hWrite, hHolds, hShown, hNot⟩
    obtain ⟨rfl, hBound, hRegister⟩ := hHolds.of_build hBuild
    rcases hAccounted.writes s hBound hRegister hWrite with hRole | hTied
    · exact ⟨_, ⟨s, .shown, hRole,
        (Role.gives_iff hAccounted hRole).mpr ⟨hHolds.1, hShown, nofun, rfl⟩⟩, hWrite⟩
    · obtain ⟨hBack, _, hPlain⟩ := hAccounted.tied s hBound hTied
      obtain ⟨⟨b, _⟩, hRole, rfl, hTie⟩ := id hTied
      have hSuits := hAccounted.suits hRole
      have hThere : Holds e b (registerAt e s) := ⟨hHolds.1, (hTies b s hTie).trans hHolds.2⟩
      have hSame := (hThere.of_build hBuild).1
      have hAccess : Role.base.summaryAccess e.opcode b = .both := by
        rw [Role.summaryAccess, hBack, if_pos rfl]
      refine ⟨_, ⟨b, .base, hRole,
        (Role.gives_iff hAccounted hRole).mpr ⟨?_, ?_, ?_, rfl⟩⟩, ?_⟩
      · rw [hSame]
        exact hHolds.1
      · rw [hShown, hSame, Template.shownAs, if_neg hPlain, Template.shownAs, if_neg hSuits.2.1]
      · rw [hSame]
        exact fun _ => Bool.eq_false_iff.mpr fun hReads => hNot ⟨hTied, hReads⟩
      · rw [hAccess]
        rfl

/-- The registers of the operands that all sites complete. -/
theorem mem_accesses_sites {a : Access} (hAccounted : e.opcode.Accounted) (hx : x.isSome = true) :
    (x, a) ∈ (e.opcode.sites.flatMap (Site.completed e)).flatMap
        (Operand.accesses e.opcode.writeback) ↔
      ∃ s role, e.opcode.HasRole role s ∧ role.Gives e e.opcode.writeback s x a := by
  have hSite : ∀ site ∈ e.opcode.sites,
      ((x, a) ∈ (site.completed e).flatMap (Operand.accesses e.opcode.writeback) ↔
        ∃ s role, (s, role) ∈ site.roles ∧ role.Gives e e.opcode.writeback s x a) := by
    intro site hMem
    refine mem_accesses_completed hx fun s hIndex => ?_
    have hSuits : e.opcode.Suits s .index :=
      hAccounted.suits (List.mem_flatMap.mpr ⟨site, hMem, hIndex⟩)
    exact ⟨hSuits.2.2.1, hSuits.2.1⟩
  rw [List.flatMap_assoc, List.mem_flatMap]
  constructor
  · rintro ⟨site, hMem, hAccess⟩
    obtain ⟨s, role, hRole, hGives⟩ := (hSite site hMem).mp hAccess
    exact ⟨s, role, List.mem_flatMap.mpr ⟨site, hMem, hRole⟩, hGives⟩
  · rintro ⟨s, role, hRole, hGives⟩
    obtain ⟨site, hMem, hRoles⟩ := List.mem_flatMap.mp hRole
    exact ⟨site, hMem, (hSite site hMem).mpr ⟨s, role, hRoles, hGives⟩⟩

/-- One side of the operands of a report, in terms of the registers with their accesses. -/
private theorem mem_side_iff {ops : List Operand} {writeback : Bool}
    {registers : Operand → List Register} {side : Access → Bool}
    (h : ∀ op, registers op = ((op.accesses writeback).filter (side ·.2)).map Prod.fst) :
    x ∈ ops.flatMap registers ↔
      ∃ a, (x, a) ∈ ops.flatMap (Operand.accesses writeback) ∧ side a = true := by
  simp only [List.mem_flatMap, h, List.mem_map, List.mem_filter, Prod.exists]
  constructor
  · rintro ⟨op, hOp, _, a, ⟨hAccess, hSide⟩, rfl⟩
    exact ⟨a, ⟨op, hOp, hAccess⟩, hSide⟩
  · rintro ⟨a, ⟨op, hOp, hAccess⟩, hSide⟩
    exact ⟨op, hOp, x, a, ⟨hAccess, hSide⟩, rfl⟩

/-- The summary lists what is implicitly read and what is read of the operands, and the same
for what is written. -/
theorem Report.mem_usage (report : Report) (x : Register) :
    (x ∈ report.usage.reads ↔ x ∈ report.effects.reads.items ∨
      ∃ a, (x, a) ∈ report.operands.toList.flatMap
        (Operand.accesses report.effects.writeback) ∧ a.read = true) ∧
    (x ∈ report.usage.writes ↔ x ∈ report.effects.writes.items ∨
      ∃ a, (x, a) ∈ report.operands.toList.flatMap
        (Operand.accesses report.effects.writeback) ∧ a.write = true) := by
  rw [usage, Footprint.foldl_record (Operand.recordIn_eq _), Footprint.mentionAll_ofImplicit]
  rw [List.mem_eraseDups, List.mem_eraseDups, List.mem_append, List.mem_append,
    mem_side_iff (Operand.readRegisters_eq report.effects.writeback),
    mem_side_iff (Operand.writtenRegisters_eq report.effects.writeback)]
  exact ⟨Iff.rfl, Iff.rfl⟩

/-- A register is implicitly touched if the template lists it, or if it is the count
register and the branch counts down. -/
theorem mem_implicit_iff {listed items : List Register} {counts : Bool}
    (h : items = if counts then Footprint.mention listed .ctr else listed) :
    x ∈ items ↔ x ∈ listed ∨ x = .ctr ∧ counts = true := by
  rw [h]
  cases counts with
  | true => simp [Footprint.mem_mention]
  | false => simp

end Summary

/-- The register summary of a filled instruction, whose tied slots hold the same, says what
its table says.  A register is read just if the template lists it, or it is the count
register and the final condition counts down, or it shows in a slot that is read; it is
written just if the template lists it, or it is the count register of such a condition, or
it shows in a slot that is written.  Registers that read as zero do not count as bases. -/
theorem mem_usage_of_screened {e : Encoded} {insn : Instruction} (hTable : e.opcode ∈ templates)
    (hBuild : Instruction.build e true = .ok insn) (hTies : HonoursTies e) :
    ∃ report : Report, (insn.take .fill).result = .ok { e with report := some report } ∧
      ∀ x : Register, x.isSome = true →
        (x ∈ report.usage.reads ↔ x ∈ e.opcode.reads ∨
          (x = .ctr ∧ countsDown report.condition = true) ∨ ReadsField e x) ∧
        (x ∈ report.usage.writes ↔ x ∈ e.opcode.writes ∨
          (x = .ctr ∧ countsDown report.condition = true) ∨ WritesField e x) := by
  have hAccounted := accounted_of_mem_templates hTable
  obtain ⟨report, hFill, hOperands, _⟩ :=
    Report.fill_progress (wellFormed_of_mem_templates hTable)
  have hImplicit := Report.fill_implicit hTable hFill
  have hList : report.operands.toList = e.opcode.sites.flatMap (Site.completed e) := by
    rw [hOperands, Cursor.toList_extend]
    rfl
  refine ⟨report, ?_, fun x hx => ?_⟩
  · rw [eq_ofEncoded_of_build hBuild]
    exact map_eq_ok_iff.mpr ⟨report, hFill, rfl⟩
  · obtain ⟨hReads, hWrites⟩ := report.mem_usage x
    rw [hList, hImplicit.writeback] at hReads hWrites
    simp only [mem_accesses_sites hAccounted hx] at hReads hWrites
    rw [exists_gives_read_iff hAccounted hBuild, mem_implicit_iff hImplicit.reads, or_assoc]
      at hReads
    rw [exists_gives_write_iff hAccounted hBuild hTies, mem_implicit_iff hImplicit.writes,
      or_assoc] at hWrites
    exact ⟨hReads, hWrites⟩

/-- A load that writes the effective address back to its base register. -/
def loadAndUpdate : Encoded where
  opcode := (templates.find? (·.name == "LWZU")).get (by decide +kernel)
  fields := [.register 12, .register 13, .immediate 8, .register 13]

/-- The slot of the new address is not shown, but the summary lists its register as written,
because the base is tied to it. -/
theorem mem_usage_loadAndUpdate :
    loadAndUpdate.opcode ∈ templates ∧
      Instruction.build loadAndUpdate true =
        .ok { loadAndUpdate with report := some (default : Report) } ∧
      HonoursTies loadAndUpdate ∧
      ∃ report : Report,
        (Instruction.take { loadAndUpdate with report := some (default : Report) } .fill).result =
          .ok { loadAndUpdate with report := some report } ∧
        (⟨13⟩ : Register) ∈ report.usage.reads ∧ (⟨13⟩ : Register) ∈ report.usage.writes := by
  have hTable : loadAndUpdate.opcode ∈ templates := by
    dsimp only [loadAndUpdate]
    exact List.get_find?_mem _
  have hBuild : Instruction.build loadAndUpdate true =
      .ok { loadAndUpdate with report := some (default : Report) } := rfl
  have hTies : HonoursTies loadAndUpdate := by
    intro s target hTie
    match s with
    | 0 | 1 | 2 => contradiction
    | 3 =>
        cases hTie
        rfl
    | s + 4 => contradiction
  obtain ⟨report, hFill, hUsage⟩ := mem_usage_of_screened hTable hBuild hTies
  obtain ⟨hReads, hWrites⟩ := hUsage ⟨13⟩ rfl
  refine ⟨hTable, hBuild, hTies, report, hFill, hReads.mpr ?_, hWrites.mpr ?_⟩
  · exact .inr (.inr ⟨3, ⟨13⟩, rfl, ⟨rfl, rfl⟩, rfl, by decide⟩)
  · exact .inr (.inr ⟨1, ⟨13⟩, rfl, ⟨rfl, rfl⟩, rfl, by decide⟩)

end OperandReport.Power
