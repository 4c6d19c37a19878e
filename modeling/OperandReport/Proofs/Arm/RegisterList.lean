import OperandReport.Proofs.Arm.BaseUsage
import OperandReport.Proofs.Arm.Shifts

/-!
# Register lists

Five opcodes load or store a list of registers.  The list starts at the last slot of the table
and runs to the last field, however many fields there are; the fields behind the table share the
last description.  A field of the list that names no register is passed over.

The list has no ties, so each of its registers has the access of that description as it stands:
a load or a pop writes it, a store or a push reads it.  A base is shown before the list where the
opcode has one that is not implied; it may be tied, and is not part of the list even if the list
names it again.

## Main results

* `completedBy_registerListEdits`: what a list completes.
* `listsRegisters_of_variadic`: the sites and the access of every opcode with a list.
* `take_fill_registerList`: what such an opcode reports.
-/

namespace OperandReport

/-- From the last slot on all slots share its description. -/
theorem SlotTable.describe_of_le {slots : SlotTable} {i : Nat} (h : slots.length ≤ i + 1) :
    slots.describe i = slots.getLast?.getD {} := by
  unfold describe
  by_cases hLast : i + 1 = slots.length
  · have hSame : slots.getLast? = slots[i]? := by
      rw [List.getLast?_eq_getElem?, ← hLast, Nat.add_sub_cancel]
    rw [hSame, Option.or_self]
  · have hBehind : slots[i]? = none := by simp only [List.getElem?_eq_none_iff]; omega
    rw [hBehind, Option.none_or]

/-- The fields from `i` on, by their numbers. -/
theorem Encoded.drop_fields {τ : Type} (e : Encoded τ) (i : Nat) :
    e.fields.drop i = (List.range' i (e.fields.length - i)).map e.field := by
  refine List.ext_getElem (by simp) fun k hDropped hNumbered => ?_
  have hField : i + k < e.fields.length := by
    rw [List.length_drop] at hDropped
    omega
  simp [field, List.getElem?_eq_getElem hField]

namespace Arm

/-! ## What is listed -/

/-- The register that a field names. -/
def namedRegister? : Field → Option Register
  | .register id => if id = 0 then none else some ⟨id⟩
  | _ => none

namespace Template

/-- The field of the base, if the opcode shows one. -/
def baseField? (t : Template) : Option Nat :=
  t.sites.findSome? fun
    | .operand .plain i => some i
    | _ => none

/-- The field at which the list starts: the last slot. -/
def listField (t : Template) : Nat := t.slots.length - 1

/-- The access of the last slot, without regard to ties. -/
def listAccess (t : Template) : Access := (t.slots.getLast?.getD {}).access

end Template

/-- The base, if the opcode shows one and there is one. -/
def baseOperands (e : Encoded) : List Operand :=
  (e.opcode.baseField?.toList.filter (e.registerId · ≠ 0)).map fun i =>
    .ofRegister (registerAt e i) (accessAt e i)

/-- The registers that the fields of the list name, in order, and as often as they name
them. -/
def listedRegisters (e : Encoded) : List Register :=
  (e.fields.drop e.opcode.listField).filterMap namedRegister?

section

variable {e : Encoded} {i : Nat}

/-- Known registers are those that the fields name. -/
theorem AllKnown.registerAt_of_named (hKnown : AllKnown e) :
    namedRegister? (e.field i) =
      if (registerAt e i).isSome then some (registerAt e i) else none := by
  have hAt : registerAt e i = ⟨e.registerId i⟩ := congrArg Register.mk hKnown.id_registerAt
  rw [hAt]
  unfold Encoded.registerId namedRegister?
  cases e.field i with
  | register id => by_cases hZero : id = 0 <;> simp [Register.isSome, hZero]
  | immediate v => rfl
  | vacant => rfl

/-- A list that starts at the last slot completes the registers that its fields name, with the
access of this slot. -/
theorem completedBy_registerListEdits (hKnown : AllKnown e) :
    Edit.completedBy (registerListEdits e e.opcode.listField) =
      (listedRegisters e).map (.ofRegister · e.opcode.listAccess) := by
  have hEach (k : Nat) (hk : k ∈ List.range' e.opcode.listField
      (e.fields.length - e.opcode.listField)) :
      (if (registerAt e k).isSome then
        some (Edit.report (Operand.ofRegister (registerAt e k) (nominalAccessAt e k)))
      else none) =
      ((namedRegister? (e.field k)).map (Operand.ofRegister · e.opcode.listAccess)).map
        Edit.report := by
    have hShared : nominalAccessAt e k = e.opcode.listAccess := by
      have hBound : e.opcode.slots.length ≤ k + 1 := by
        have hStart : e.opcode.slots.length - 1 ≤ k := (List.mem_range'_1.mp hk).1
        omega
      rw [nominalAccessAt, SlotTable.describe_of_le hBound]
      rfl
    rw [hKnown.registerAt_of_named, hShared]
    by_cases hSome : (registerAt e k).isSome = true
    · rw [if_pos hSome, if_pos hSome]
      rfl
    · rw [if_neg hSome, if_neg hSome]
      rfl
  rw [listedRegisters, Encoded.drop_fields, List.filterMap_map, List.map_filterMap,
    ← Edit.completedBy_map_report (List.filterMap _ _), List.map_filterMap]
  exact congrArg Edit.completedBy (List.filterMap_congr hEach)

/-- A field that names no register completes nothing, where an immediate cannot stand. -/
theorem Site.completed_plain_of_absent (hKind : e.isImmediate i = false)
    (h : e.registerId i = 0) : Site.completed e (.operand .plain i) = [] :=
  (completed_eq_nil_iff rfl).mpr ((isVacant_iff hKind).mpr h)

end

/-! ## The table -/

/-- The opcodes that write a list of registers. -/
def listLoads : List String := ["LDMIA", "LDMIA_UPD", "tPOP"]

/-- The opcodes that read a list of registers. -/
def listStores : List String := ["STMDB_UPD", "tPUSH"]

/-- What the table promises of an opcode with a list: a predicate, the base if there is one to
show, and the list. -/
structure Template.ListsRegisters (t : Template) : Prop where
  sites : t.sites = .effect .predicate (t.listField - 2) ::
    (t.baseField?.toList.map (.operand .plain) ++ [.operand .registerList t.listField])
  base : ∀ i ∈ t.baseField?, (t.slots.describe i).kind = .register
  access : (t.name ∈ listLoads ∧ t.listAccess = .writes) ∨
    (t.name ∈ listStores ∧ t.listAccess = .reads)

instance (t : Template) : Decidable t.ListsRegisters :=
  decidable_of_iff
    (t.sites = .effect .predicate (t.listField - 2) ::
        (t.baseField?.toList.map (.operand .plain) ++ [.operand .registerList t.listField]) ∧
      (∀ i ∈ t.baseField?, (t.slots.describe i).kind = .register) ∧
      ((t.name ∈ listLoads ∧ t.listAccess = .writes) ∨
        (t.name ∈ listStores ∧ t.listAccess = .reads)))
    ⟨fun ⟨hSites, hBase, hAccess⟩ => ⟨hSites, hBase, hAccess⟩,
      fun h => ⟨h.sites, h.base, h.access⟩⟩

/-- The opcodes whose last slot repeats are those with a list. -/
theorem listsRegisters_of_variadic {t : Template} (ht : t ∈ templates)
    (hVariadic : t.variadic = true) : t.ListsRegisters := by
  have hAll : ∀ t ∈ templates, t.variadic = true → t.ListsRegisters := by decide +kernel
  exact hAll t ht hVariadic

theorem Template.ListsRegisters.looksBack {t : Template} (h : t.ListsRegisters) :
    ∀ site ∈ t.sites, site.looksBack = false := by
  intro site hSite
  rw [h.sites] at hSite
  simp only [List.mem_cons, List.mem_append, List.mem_map, List.not_mem_nil, or_false] at hSite
  rcases hSite with rfl | ⟨i, _, rfl⟩ | rfl
  · rfl
  · rfl
  · rfl

/-! ## Filled instructions -/

/-- The sites of such an opcode complete the base and then the list. -/
theorem completed_of_listsRegisters {e : Encoded} (hLists : e.opcode.ListsRegisters)
    (hKnown : AllKnown e) (hBase : ∀ i ∈ e.opcode.baseField?, e.isImmediate i = false) :
    e.opcode.sites.flatMap (Site.completed e) =
      baseOperands e ++ (listedRegisters e).map (.ofRegister · e.opcode.listAccess) := by
  have hShown : (e.opcode.baseField?.toList.map (Site.operand .plain)).flatMap
      (Site.completed e) = baseOperands e := by
    unfold baseOperands
    cases hField : e.opcode.baseField? with
    | none => rfl
    | some i =>
        by_cases hZero : e.registerId i = 0
        · simp [Site.completed_plain_of_absent (hBase i hField) hZero, hZero]
        · simp [Site.completed_plain_of_register hZero, hZero]
  rw [hLists.sites, List.flatMap_cons, List.flatMap_append, hShown, List.flatMap_singleton]
  exact congrArg (baseOperands e ++ ·) (completedBy_registerListEdits hKnown)

/-- An accepted instruction with a list is filled, whatever its length, mode and address.  Its
operands are the base, if one is shown, and the registers that the fields from the site of the
list on name, in order and as often as they name them.  Loads and pops write them, stores and
pushes read them, and the summary of registers lists each of them once on that side. -/
theorem take_fill_registerList {e : Encoded} {insn : Instruction} (hTable : e.opcode ∈ templates)
    (hVariadic : e.opcode.variadic = true) (hBuild : Instruction.build e true = .ok insn) :
    .operand .registerList e.opcode.listField ∈ e.opcode.sites ∧
      ∃ report : Report, (insn.take .fill).result = .ok { e with report := some report } ∧
        report.operands.toList =
          baseOperands e ++ (listedRegisters e).map (.ofRegister · e.opcode.listAccess) ∧
        ((e.opcode.name ∈ listLoads ∧ e.opcode.listAccess = .writes ∧
            ∀ r ∈ listedRegisters e, report.usage.writes.count r = 1) ∨
          (e.opcode.name ∈ listStores ∧ e.opcode.listAccess = .reads ∧
            ∀ r ∈ listedRegisters e, report.usage.reads.count r = 1)) := by
  have hLists := listsRegisters_of_variadic hTable hVariadic
  have hBase : ∀ i ∈ e.opcode.baseField?, e.isImmediate i = false := fun i hi =>
    isImmediate_of_build hBuild (hLists.base i hi)
  obtain ⟨report, hTake, _, hOperands⟩ :=
    Report.take_fill_of_additive hTable hBuild hLists.looksBack
  rw [completed_of_listsRegisters hLists (ofId?_of_build hBuild) hBase] at hOperands
  have hMem (r : Register) (hr : r ∈ listedRegisters e) :
      .ofRegister r e.opcode.listAccess ∈ report.operands.toList := by
    rw [hOperands]
    exact List.mem_append_right _ (List.mem_map_of_mem hr)
  refine ⟨?_, report, hTake, hOperands, ?_⟩
  · rw [hLists.sites]
    simp
  rcases hLists.access with ⟨hName, hAccess⟩ | ⟨hName, hAccess⟩
  · rw [hAccess] at hMem
    exact .inl ⟨hName, hAccess, fun r hr => Report.count_writes (hMem r hr) List.mem_cons_self⟩
  · rw [hAccess] at hMem
    exact .inr ⟨hName, hAccess, fun r hr => Report.count_reads (hMem r hr) List.mem_cons_self⟩

/-- A store of a list that names its base again, another register twice, and in one field no
register. -/
def sparseList : Encoded where
  opcode := (templates.find? (·.name == "STMDB_UPD")).get (by decide +kernel)
  fields := [.register 33, .register 33, .immediate 14, .register 0, .register 34, .vacant,
    .register 33, .register 34]

/-- The base is read and written, and the registers of the list are only read, the base
among them. -/
theorem take_fill_sparseList :
    sparseList.opcode ∈ templates ∧ sparseList.opcode.variadic = true ∧
      Instruction.build sparseList true =
        .ok { sparseList with report := some (default : Report) } ∧
      ∃ report : Report,
        (Instruction.take { sparseList with report := some (default : Report) } .fill).result =
          .ok { sparseList with report := some report } ∧
        report.operands.toList =
          [.ofRegister ⟨33⟩ .both, .ofRegister ⟨34⟩ .reads, .ofRegister ⟨33⟩ .reads,
            .ofRegister ⟨34⟩ .reads] ∧
        report.usage.reads.count ⟨34⟩ = 1 := by
  have hTable : sparseList.opcode ∈ templates := by
    dsimp only [sparseList]
    exact List.get_find?_mem _
  have hBuild : Instruction.build sparseList true =
      .ok { sparseList with report := some (default : Report) } := rfl
  obtain ⟨_, report, hTake, hOperands, hUsage⟩ := take_fill_registerList hTable rfl hBuild
  refine ⟨hTable, rfl, hBuild, report, hTake, hOperands.trans rfl, ?_⟩
  rcases hUsage with ⟨_, hWrites, _⟩ | ⟨_, _, hCount⟩
  · contradiction
  · exact hCount ⟨34⟩ (by decide +kernel)

end Arm

end OperandReport
