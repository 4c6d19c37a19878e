import Mathlib.Data.List.Nodup
import OperandReport.Proofs.Arm.Address
import OperandReport.Proofs.Arm.Ordinary
import OperandReport.Proofs.Screening
import OperandReport.Proofs.Usage

/-!
# Usage of base registers

An instruction that writes its base register back has the new base as a slot of its own,
which no site shows.  What the summary of registers says of the base is recovered in one of
two ways.  A memory operand is recorded as read, and as written too if the instruction writes
back.  The two transfers of register lists show their base as a plain register instead; its
slot is tied to the one for the new base, so its access is widened to both.

Without write-back a base is only read, and it is written only where something else says so.

## Main results

* `OperandForm.showsBase`: a memory form shows the register at its first field.
* `Report.base_usage`: a base that is kept.
* `take_fill_baseUsage`: bases of accepted instructions, with and without write-back.
-/

namespace OperandReport.Arm

/-! ## Bases that are shown -/

/-- Some operand is a memory operand on the base. -/
def ShowsBase (base : Register) (ops : List Operand) : Prop :=
  ∃ op ∈ ops, ∃ m, op.value = .memory m ∧ m.base = base

/-- A memory form shows the register at its first field as the base, but for the one that
counts from the program counter. -/
theorem OperandForm.showsBase {e : Encoded} {i : Nat} {form : OperandForm}
    (hForm : form.isMemory = true) (hOwn : form ≠ .literal) (hBase : e.isRegister i = true) :
    ShowsBase (registerAt e i) (Edit.completedBy (form.edits e i)) := by
  cases form with
  | literal => contradiction
  | mode2 =>
      show ShowsBase _ (Edit.completedBy (mode2Edits e i))
      rw [mode2Edits_eq, onBase_of_isRegister hBase]
      dsimp only
      split
      · exact ⟨_, List.mem_cons_self, _, rfl, rfl⟩
      · exact ⟨_, List.mem_cons_self, _, rfl, rfl⟩
  | mode3 showZero =>
      show ShowsBase _ (Edit.completedBy (mode3Edits e i showZero))
      rw [mode3Edits_eq, onBase_of_isRegister hBase]
      dsimp only
      split
      · exact ⟨_, List.mem_cons_self, _, rfl, rfl⟩
      · split
        · exact ⟨_, List.mem_cons_self, _, rfl, rfl⟩
        · exact ⟨_, List.mem_cons_self, _, rfl, rfl⟩
  | mode5 showZero =>
      show ShowsBase _ (Edit.completedBy (mode5Edits e i 4 showZero))
      rw [mode5Edits_eq, onBase_of_isRegister hBase]
      exact ⟨_, List.mem_cons_self, _, rfl, rfl⟩
  | mode5Half showZero =>
      show ShowsBase _ (Edit.completedBy (mode5Edits e i 2 showZero))
      rw [mode5Edits_eq, onBase_of_isRegister hBase]
      exact ⟨_, List.mem_cons_self, _, rfl, rfl⟩
  | signedOffset showZero | shortOffset showZero | shortWordOffset showZero =>
      show ShowsBase _ (Edit.completedBy (signedOffsetEdits e i showZero))
      rw [signedOffsetEdits_eq, onBase_of_isRegister hBase]
      exact ⟨_, List.mem_cons_self, _, rfl, rfl⟩
  | scaledOffset scale =>
      show ShowsBase _ (Edit.completedBy (scaledOffsetEdits e i scale))
      rw [scaledOffsetEdits, onBase_of_isRegister hBase]
      exact ⟨_, List.mem_cons_self, _, rfl, rfl⟩
  | stackOffset =>
      show ShowsBase _ (Edit.completedBy (scaledOffsetEdits e i 4))
      rw [scaledOffsetEdits, onBase_of_isRegister hBase]
      exact ⟨_, List.mem_cons_self, _, rfl, rfl⟩
  | indexed =>
      unfold edits
      dsimp only
      rw [onBase_of_isRegister hBase]
      exact ⟨_, List.mem_cons_self, _, rfl, rfl⟩
  | mode6 | baseOnly | shiftedIndex | exclusiveOffset | tableByte | tableHalf
  | vectorOffsets _ => exact ⟨_, List.mem_cons_self, _, rfl, rfl⟩
  | _ => contradiction

/-! ## Bases in a summary -/

namespace Operand

/-- A memory operand reads its base. -/
theorem base_mem_readRegisters {op : Operand} {m : Memory} (hValue : op.value = .memory m)
    (hSome : m.base.isSome = true) : m.base ∈ op.readRegisters := by
  simp [readRegisters, hValue, hSome]

/-- It writes the base as well, if that is written back. -/
theorem base_mem_writtenRegisters {op : Operand} {m : Memory} (hValue : op.value = .memory m)
    (hSome : m.base.isSome = true) : m.base ∈ op.writtenRegisters true := by
  simp [writtenRegisters, hValue, hSome]

/-- Where no base is written back, an operand writes a register only as the register that
it is. -/
theorem mem_writtenRegisters_false {op : Operand} {r : Register} :
    r ∈ op.writtenRegisters false ↔ op.value = .register r ∧ op.access.write = true := by
  unfold writtenRegisters
  cases op.value with
  | register s =>
      cases op.access.write with
      | true => simp [eq_comm]
      | false => simp
  | memory m => simp
  | _ => simp

end Operand

namespace Report

/-- A register that an operand reads is listed once as read. -/
theorem count_reads {report : Report} {op : Operand} {r : Register}
    (hOp : op ∈ report.operands.toList) (hRead : r ∈ op.readRegisters) :
    report.usage.reads.count r = 1 :=
  List.count_eq_one_of_mem report.nodup_usage.1 ((report.mem_usage r).1.mpr (.inr ⟨op, hOp, hRead⟩))

/-- A register that an operand writes is listed once as written. -/
theorem count_writes {report : Report} {op : Operand} {r : Register}
    (hOp : op ∈ report.operands.toList)
    (hWritten : r ∈ op.writtenRegisters report.effects.writeback) :
    report.usage.writes.count r = 1 :=
  List.count_eq_one_of_mem report.nodup_usage.2
    ((report.mem_usage r).2.mpr (.inr ⟨op, hOp, hWritten⟩))

/-- A base that is kept is read, and it is written just if it is written implicitly or as an
operand of its own. -/
theorem base_usage {report : Report} (hKept : report.effects.writeback = false) {op : Operand}
    (hOp : op ∈ report.operands.toList) {m : Memory} (hValue : op.value = .memory m)
    (hSome : m.base.isSome = true) :
    m.base ∈ report.usage.reads ∧
      (m.base ∈ report.usage.writes ↔ m.base ∈ report.effects.writes.items ∨
        ∃ other ∈ report.operands.toList,
          other.value = .register m.base ∧ other.access.write = true) := by
  obtain ⟨hReads, hWrites⟩ := report.mem_usage m.base
  rw [hKept] at hWrites
  simp only [Operand.mem_writtenRegisters_false] at hWrites
  exact ⟨hReads.mpr (.inr ⟨op, hOp, Operand.base_mem_readRegisters hValue hSome⟩), hWrites⟩

end Report

/-! ## Base slots -/

/-- The transfers of register lists that write their base back. -/
def listTransfers : List String := ["LDMIA_UPD", "STMDB_UPD"]

/-- The slot holds the base register: it is the first one of a memory operand, or the one
that a transfer of a register list shows. -/
def Template.BaseSlot (t : Template) (i : Nat) : Prop :=
  (∃ site ∈ t.sites, site.isMemory = true ∧ site.slot = i) ∨ (t.name ∈ listTransfers ∧ i = 1)

/-- What the table promises of an opcode that writes its base back. -/
structure Template.KeepsTrack (t : Template) : Prop where
  additive : ∀ site ∈ t.sites, site.looksBack = false
  own : ∀ site ∈ t.sites, site ≠ .operand .literal site.slot
  found : t.sites.any Site.isMemory = true ∨ t.name ∈ listTransfers
  tied : t.name ∈ listTransfers → .operand .plain 1 ∈ t.sites ∧ t.slots.access 1 = .both

instance (t : Template) : Decidable t.KeepsTrack :=
  decidable_of_iff
    ((∀ site ∈ t.sites, site.looksBack = false) ∧
      (∀ site ∈ t.sites, site ≠ .operand .literal site.slot) ∧
      (t.sites.any Site.isMemory = true ∨ t.name ∈ listTransfers) ∧
      (t.name ∈ listTransfers → .operand .plain 1 ∈ t.sites ∧ t.slots.access 1 = .both))
    ⟨fun ⟨hAdditive, hOwn, hFound, hTied⟩ => ⟨hAdditive, hOwn, hFound, hTied⟩,
      fun h => ⟨h.additive, h.own, h.found, h.tied⟩⟩

/-- Every opcode of the table that writes its base back keeps track of it. -/
theorem keepsTrack_of_mem_templates {t : Template} (ht : t ∈ templates)
    (hWriteback : t.writeback = true) : t.KeepsTrack := by
  have hAll : ∀ t ∈ templates, t.writeback = true → t.KeepsTrack := by decide +kernel
  exact hAll t ht hWriteback

theorem Template.KeepsTrack.exists_baseSlot {t : Template} (h : t.KeepsTrack) :
    ∃ i, t.BaseSlot i := by
  rcases h.found with hMemory | hList
  · obtain ⟨site, hSite, hMemory⟩ := List.any_eq_true.mp hMemory
    exact ⟨site.slot, .inl ⟨site, hSite, hMemory, rfl⟩⟩
  · exact ⟨1, .inr ⟨hList, rfl⟩⟩

/-! ## Filled instructions -/

theorem isRegister_of_registerId {e : Encoded} {i : Nat} (h : e.registerId i ≠ 0) :
    e.isRegister i = true := by
  unfold Encoded.registerId at h
  unfold Encoded.isRegister
  split at h
  · rfl
  · contradiction

/-- The register of a field that names one is there. -/
theorem AllKnown.isSome_registerAt {e : Encoded} (hKnown : AllKnown e) {i : Nat}
    (h : e.registerId i ≠ 0) : (registerAt e i).isSome = true := by
  refine bne_iff_ne.mpr fun hNone => h (hKnown.registerAt_eq_none_iff.mp ?_)
  exact congrArg Register.mk hNone

/-- The sites of an opcode that writes its base back complete an operand that reads and
writes the base. -/
theorem exists_readAndWritten {e : Encoded} (hTable : e.opcode.KeepsTrack) (hKnown : AllKnown e)
    {i : Nat} (hSlot : e.opcode.BaseSlot i) (hBase : e.registerId i ≠ 0) :
    ∃ op ∈ e.opcode.sites.flatMap (Site.completed e),
      registerAt e i ∈ op.readRegisters ∧ registerAt e i ∈ op.writtenRegisters true := by
  rcases hSlot with ⟨site, hSite, hMemory, rfl⟩ | ⟨hList, rfl⟩
  · cases site with
    | effect form i => contradiction
    | operand form i =>
        have hOwn : form ≠ .literal := by
          rintro rfl
          exact hTable.own _ hSite rfl
        obtain ⟨op, hOp, m, hValue, hAt⟩ :=
          form.showsBase hMemory hOwn (isRegister_of_registerId hBase)
        have hSome : m.base.isSome = true := by
          rw [hAt]
          exact hKnown.isSome_registerAt hBase
        refine ⟨op, List.mem_flatMap.mpr ⟨_, hSite, hOp⟩, ?_⟩
        rw [← hAt]
        exact ⟨Operand.base_mem_readRegisters hValue hSome,
          Operand.base_mem_writtenRegisters hValue hSome⟩
  · obtain ⟨hSite, hAccess⟩ := hTable.tied hList
    have hCompleted := Site.completed_plain_of_register hBase
    have hBoth : accessAt e 1 = .both := hAccess
    refine ⟨_, List.mem_flatMap.mpr ⟨_, hSite, hCompleted ▸ List.mem_cons_self⟩, ?_⟩
    rw [hBoth]
    exact ⟨List.mem_cons_self, List.mem_cons_self⟩

/-- A base that is written back is listed once as read and once as written, whatever else the
instruction reads and writes.  A base that is kept is read, and it is written just if it is
written implicitly or as an operand of its own. -/
theorem take_fill_baseUsage {e : Encoded} {insn : Instruction} (hTable : e.opcode ∈ templates)
    (hBuild : Instruction.build e true = .ok insn) :
    (e.opcode.writeback = true →
      (∃ i, e.opcode.BaseSlot i) ∧
      ∀ i, e.opcode.BaseSlot i → e.registerId i ≠ 0 →
        ∃ report : Report, (insn.take .fill).result = .ok { e with report := some report } ∧
          report.usage.reads.count (registerAt e i) = 1 ∧
          report.usage.writes.count (registerAt e i) = 1) ∧
    (e.opcode.writeback = false →
      ∀ report : Report, (insn.take .fill).result = .ok { e with report := some report } →
        ∀ op ∈ report.operands.toList, ∀ m, op.value = .memory m → m.base.isSome = true →
          m.base ∈ report.usage.reads ∧
            (m.base ∈ report.usage.writes ↔ m.base ∈ report.effects.writes.items ∨
              ∃ other ∈ report.operands.toList,
                other.value = .register m.base ∧ other.access.write = true)) := by
  have hTidy := tidy_of_mem_templates hTable
  have hFields := flagFields_of_build hTable hBuild
  constructor
  · intro hWriteback
    have hTrack := keepsTrack_of_mem_templates hTable hWriteback
    refine ⟨hTrack.exists_baseSlot, fun i hSlot hBase => ?_⟩
    obtain ⟨report, hTake, hFill, hOperands⟩ :=
      Report.take_fill_of_additive hTable hBuild hTrack.additive
    obtain ⟨op, hOp, hRead, hWritten⟩ :=
      exists_readAndWritten hTrack (ofId?_of_build hBuild) hSlot hBase
    have hFlag : report.effects.writeback = true :=
      (Report.fill_implicit hTidy hFields hFill).writeback.trans hWriteback
    rw [← hOperands] at hOp
    exact ⟨report, hTake, Report.count_reads hOp hRead, Report.count_writes hOp (hFlag ▸ hWritten)⟩
  · intro hKept report hTake op hOp m hValue hSome
    obtain ⟨_, rfl⟩ := takes_of_build hBuild
    obtain ⟨filled, hFill, hSame⟩ := map_eq_ok_iff.mp hTake
    cases hSame
    have hFlag : report.effects.writeback = false :=
      (Report.fill_implicit hTidy hFields hFill).writeback.trans hKept
    exact Report.base_usage hFlag hOp hValue hSome

/-- A load of a word from four bytes above a base register, which is moved there. -/
def loadWordPre : Encoded where
  opcode := (templates.find? (·.name == "LDR_PRE_IMM")).get (by decide +kernel)
  fields := [.register 32, .register 33, .register 33, .immediate 4, .immediate 14, .register 0]

/-- A load of a word at the sum of a base and an index register, which stay where they are. -/
def loadWordAtSum : Encoded where
  opcode := (templates.find? (·.name == "LDRrs")).get (by decide +kernel)
  fields := [.register 32, .register 33, .register 34, .immediate 0, .immediate 14, .register 0]

/-- The one load reads and writes its base, the other one only reads it. -/
theorem take_fill_loadWordPre :
    (loadWordPre.opcode ∈ templates ∧
      Instruction.build loadWordPre true =
        .ok { loadWordPre with report := some (default : Report) } ∧
      loadWordPre.opcode.writeback = true ∧ loadWordPre.opcode.BaseSlot 2 ∧
      ∃ report : Report,
        (Instruction.take { loadWordPre with report := some (default : Report) } .fill).result =
          .ok { loadWordPre with report := some report } ∧
        report.usage.reads.count ⟨33⟩ = 1 ∧ report.usage.writes.count ⟨33⟩ = 1) ∧
    (loadWordAtSum.opcode ∈ templates ∧
      Instruction.build loadWordAtSum true =
        .ok { loadWordAtSum with report := some (default : Report) } ∧
      loadWordAtSum.opcode.writeback = false ∧
      ∃ report : Report,
        (Instruction.take { loadWordAtSum with report := some (default : Report) } .fill).result =
          .ok { loadWordAtSum with report := some report } ∧
        ⟨33⟩ ∈ report.usage.reads ∧ ⟨33⟩ ∉ report.usage.writes) := by
  have hPre : loadWordPre.opcode ∈ templates := by
    dsimp only [loadWordPre]
    exact List.get_find?_mem _
  have hPreBuild : Instruction.build loadWordPre true =
      .ok { loadWordPre with report := some (default : Report) } := rfl
  have hSlot : loadWordPre.opcode.BaseSlot 2 :=
    .inl ⟨.operand (.signedOffset true) 2, by decide +kernel, rfl, rfl⟩
  have hSum : loadWordAtSum.opcode ∈ templates := by
    dsimp only [loadWordAtSum]
    exact List.get_find?_mem _
  have hSumBuild : Instruction.build loadWordAtSum true =
      .ok { loadWordAtSum with report := some (default : Report) } := rfl
  refine ⟨⟨hPre, hPreBuild, rfl, hSlot, ?_⟩, hSum, hSumBuild, rfl, _, rfl, ?_⟩
  · exact ((take_fill_baseUsage hPre hPreBuild).1 rfl).2 2 hSlot (by decide)
  · obtain ⟨hRead, hWritten⟩ := (take_fill_baseUsage hSum hSumBuild).2 rfl _ rfl
      (memoryOperand loadWordAtSum 1 { base := ⟨33⟩, index := ⟨34⟩ }) (by decide +kernel)
      _ rfl rfl
    refine ⟨hRead, mt hWritten.mp ?_⟩
    decide +kernel

end OperandReport.Arm
