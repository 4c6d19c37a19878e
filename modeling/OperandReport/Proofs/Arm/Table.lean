import OperandReport.Arm.Screening
import OperandReport.Proofs.Arm.Visit

/-!
# What the table promises

The sites of a template are fixed, so a few facts about them can be read off the
table once and for all.  `Template.WellPlaced` collects those that later arguments
use: sets and operands have room, no fixed shift is empty, a register list ends the
table, and only plain fields, incremented immediates and predicates stand before a
site that looks back.

The facts are decided over the whole table; everything about the fields of an
instruction is proved from them.

## Main results

* `wellPlaced_of_mem_templates`: every template is well placed.
* `length_completed_le`: the sites of a screened instruction never complete more
  operands than a report holds.
* `completed_eq_nil_iff`: when a site before one that looks back completes nothing.
-/

namespace OperandReport.Arm

namespace Site

/-- The most operands that the site completes, whatever the fields are. -/
def limit : Site → Nat
  | effect .. => 0
  | operand .registerList _ => listCapacity
  | operand form _ => if form.looksBack then 0 else 4

/-- The site may stand before one that looks back. -/
def isGuard : Site → Bool
  | effect .predicate _ | operand .plain _ | operand .plusOne _ => true
  | _ => false

/-- The site completes nothing and is no annotation: a predicate, or a vacant field
on its own. -/
def isSilent (e : Encoded) : Site → Bool
  | effect .predicate _ => true
  | operand .plain i => (e.field i).isVacant
  | _ => false

/-- A register list stands at the last slot, which repeats. -/
def listsLast (t : Template) : Site → Bool
  | operand .registerList i => t.variadic && i + 1 == t.slots.length
  | _ => true

end Site

/-- The most operands that sites complete, whatever the fields are. -/
def limits : List Site → Nat
  | [] => 0
  | site :: rest => site.limit + limits rest

namespace Template

/-- What the table promises of a template. -/
structure WellPlaced (t : Template) : Prop where
  sets : t.HasRoom
  operands : limits t.sites ≤ operandCapacity
  shifts : ∀ site ∈ t.sites, site.shifts = true
  lists : ∀ site ∈ t.sites, site.listsLast t = true
  guards : t.sites.Pairwise fun earlier later => later.looksBack = true → earlier.isGuard = true

instance (t : Template) : Decidable t.WellPlaced :=
  decidable_of_iff
    (t.HasRoom ∧ limits t.sites ≤ operandCapacity ∧ (∀ site ∈ t.sites, site.shifts = true) ∧
      (∀ site ∈ t.sites, site.listsLast t = true) ∧
      t.sites.Pairwise fun earlier later => later.looksBack = true → earlier.isGuard = true)
    ⟨fun ⟨hSets, hOperands, hShifts, hLists, hGuards⟩ =>
        ⟨hSets, hOperands, hShifts, hLists, hGuards⟩,
      fun h => ⟨h.sets, h.operands, h.shifts, h.lists, h.guards⟩⟩

end Template

/-- Every template of the table is well placed. -/
theorem wellPlaced_of_mem_templates {t : Template} (ht : t ∈ templates) : t.WellPlaced := by
  have hAll : ∀ t ∈ templates, t.WellPlaced := by decide +kernel
  exact hAll t ht

/-- A screened instruction has a number of fields that suits its template. -/
theorem takes_of_build {e : Encoded} {detail : Bool} {insn : Instruction}
    (h : Instruction.build e detail = .ok insn) :
    e.opcode.takes e.fields.length = true ∧ insn = .ofEncoded e detail := by
  unfold Instruction.build Template.screen screen at h
  split at h
  · next hTakes =>
    split at h
    · contradiction
    · cases h
      exact ⟨hTakes, rfl⟩
  · contradiction

/-- In a screened instruction no immediate stands where a register is called for. -/
theorem isImmediate_of_build {e : Encoded} {detail : Bool} {insn : Instruction} {i : Nat}
    (h : Instruction.build e detail = .ok insn)
    (hKind : (e.opcode.slots.describe i).kind = .register) : e.isImmediate i = false := by
  obtain ⟨_, hScreen, _⟩ := map_eq_ok_iff.mp h
  have hField := misfit?_of_screen hScreen i
  rw [hKind] at hField
  unfold Encoded.isImmediate
  cases hContent : e.field i with
  | immediate v =>
      rw [show e.fields.getD i .vacant = .immediate v from hContent] at hField
      contradiction
  | register id => rfl
  | vacant => rfl

/-- A register list names at most as many registers as there are core registers. -/
private theorem listed_le {e : Encoded} {i : Nat} (hTakes : e.opcode.takes e.fields.length = true)
    (hLast : (Site.operand .registerList i).listsLast e.opcode = true) :
    e.fields.length - i ≤ listCapacity := by
  simp only [Site.listsLast, Bool.and_eq_true, beq_iff_eq] at hLast
  obtain ⟨hVariadic, hSlot⟩ := hLast
  simp only [Template.takes, hVariadic, if_true, Bool.and_eq_true, decide_eq_true_eq] at hTakes
  omega

/-- No site of a screened instruction goes over its limit. -/
theorem length_completed_le_limit {e : Encoded} {site : Site}
    (hTakes : e.opcode.takes e.fields.length = true) (hLast : site.listsLast e.opcode = true) :
    (site.completed e).length ≤ site.limit := by
  cases site with
  | effect form i => exact Nat.zero_le _
  | operand form i =>
      cases hForm : form.looksBack with
      | true =>
          show (Edit.completedBy (form.edits e i)).length ≤ _
          rw [form.completedBy_of_looksBack e i hForm]
          exact Nat.zero_le _
      | false =>
          by_cases hList : form = .registerList
          · subst hList
            exact Nat.le_trans (OperandForm.contributes e i hForm).count (listed_le hTakes hLast)
          · have hLimit : (Site.operand form i).limit = 4 := by
              cases form <;> first | rfl | contradiction
            rw [hLimit]
            exact Site.length_completed_le_four e fun k hEq => hList (Site.operand.inj hEq).1

/-- The sites of a screened instruction stay within what its template allows. -/
theorem length_completed_le {e : Encoded} (hTakes : e.opcode.takes e.fields.length = true)
    {sites : List Site} (hLast : ∀ site ∈ sites, site.listsLast e.opcode = true) :
    (sites.flatMap (Site.completed e)).length ≤ limits sites := by
  induction sites with
  | nil => exact Nat.le_refl 0
  | cons site rest ih =>
      obtain ⟨hFirst, hRest⟩ := List.forall_mem_cons.mp hLast
      have hHead := length_completed_le_limit hTakes hFirst
      have hTail := ih hRest
      rw [List.flatMap_cons, List.length_append]
      exact Nat.add_le_add hHead hTail

/-- A site before one that looks back completes nothing just when it is silent. -/
theorem completed_eq_nil_iff {e : Encoded} {site : Site} (hGuard : site.isGuard = true) :
    site.completed e = [] ↔ site.isSilent e = true := by
  cases site with
  | effect form i => cases form <;> first | contradiction | simp [Site.completed, Site.isSilent]
  | operand form i =>
      cases form with
      | plain =>
          show Edit.completedBy (plainEdits e i) = [] ↔ (e.field i).isVacant = true
          unfold plainEdits
          split
          · next hField => simp [hField, Field.isVacant]
          · next id hField =>
            split
            · next hZero => simp [hField, Field.isVacant, hZero]
            · next hSome => simp [hField, Field.isVacant, hSome, Edit.completed]
          · next v hField => simp [hField, Field.isVacant, Edit.completed]
      | plusOne => simp [Site.completed, Site.isSilent, OperandForm.edits, Edit.completed,
          reportImmediate]
      | _ => contradiction

end OperandReport.Arm
