import OperandReport.Proofs.Arm.Address

/-!
# Moves to and from status registers

Four opcodes move a word between a core register and a status register.  The core register
is a plain field, so its access is that of its slot, which has the direction of the move.
The access of the status register comes from two places.  A field mask is always written.
A banked register has the access of its slot, and as an immediate this slot is read whatever
the direction is.  So the one move that writes a banked register reports it as read;
`take_fill_statusMove` says that nothing else goes wrong.

## Main results

* `moveShape_of_mem_templates`: the moves of the table.
* `take_fill_statusMove`: how a move reports its two operands, and for which moves the
  access of the status register is not the direction of the move.
-/

namespace OperandReport.Arm

/-- The moves between a core register and a status register. -/
def statusMoves : List String := ["MSR", "MSRbanked", "MRSbanked", "t2MSR_M"]

namespace Template

/-- The move is from the status register to the core register. -/
def readsStatus (t : Template) : Bool := t.name == "MRSbanked"

/-- The field of the core register. -/
def coreField (t : Template) : Nat := if t.readsStatus then 0 else 1

/-- The access of the core register in the direction of the move. -/
def coreAccess (t : Template) : Access := if t.readsStatus then .writes else .reads

/-- The access of the status register in the direction of the move. -/
def statusAccess (t : Template) : Access := if t.readsStatus then .reads else .writes

/-- The slots and sites of a move: to the status register that a field mask names, to a
banked register, or from one. -/
def MoveShape (t : Template) : Prop :=
  (t.name ∈ ["MSR", "t2MSR_M"] ∧ t.slots = [.num, .src, .num, .src] ∧
    t.sites = [.effect .predicate 2, .operand .statusMask 0, .operand .plain 1]) ∨
  (t.name = "MSRbanked" ∧ t.slots = [.num, .src, .num, .src] ∧
    t.sites = [.effect .predicate 2, .operand .bankedRegister 0, .operand .plain 1]) ∨
  (t.name = "MRSbanked" ∧ t.slots = [.dst, .num, .num, .src] ∧
    t.sites = [.effect .predicate 2, .operand .plain 0, .operand .bankedRegister 1])

instance (t : Template) : Decidable t.MoveShape := inferInstanceAs (Decidable (_ ∨ _))

end Template

/-- Every move of the table has one of the three shapes. -/
theorem moveShape_of_mem_templates {t : Template} (ht : t ∈ templates)
    (hMove : t.name ∈ statusMoves) : t.MoveShape := by
  have hAll : ∀ t ∈ templates, t.name ∈ statusMoves → t.MoveShape := by decide +kernel
  exact hAll t ht hMove

/-! ## The two operands -/

/-- The banked register that a field names, if any. -/
def bankedAt? (e : Encoded) (i : Nat) : Option BankedRegister :=
  if (e.immediate i).toNat < 256 then BankedRegister.ofCode? (e.immediate i).toNat else none

/-- The operand of a move that is not the core register: it is a status register just if
one is named, and then it has the access. -/
structure StatusSide (op : Operand) (named : Prop) (access : Access) : Prop where
  notRegister : ∀ r, op.value ≠ .register r
  named_iff : (∃ s, op.value = .status s) ↔ named
  access : ∀ s, op.value = .status s → op.access = access

/-- The status register has the direction of the move just if the access that it is
reported with is that direction, or if none is named. -/
theorem StatusSide.directed_iff {op : Operand} {named : Prop} {access direction : Access}
    (h : StatusSide op named access) :
    (∀ s, op.value = .status s → op.access = direction) ↔ (named → access = direction) := by
  constructor
  · intro hDirected hNamed
    obtain ⟨s, hStatus⟩ := h.named_iff.mpr hNamed
    rw [← h.access s hStatus]
    exact hDirected s hStatus
  · intro hAccess s hStatus
    rw [h.access s hStatus]
    exact hAccess (h.named_iff.mp ⟨s, hStatus⟩)

/-- A field mask names a status register, which is written. -/
theorem completed_statusMask (e : Encoded) (i : Nat) :
    ∃ op, Site.completed e (.operand .statusMask i) = [op] ∧ StatusSide op True .writes :=
  ⟨_, rfl, nofun, ⟨fun _ => trivial, fun _ => ⟨_, rfl⟩⟩, fun _ _ => rfl⟩

/-- A banked register has the access of its slot; otherwise there is an immediate. -/
theorem completed_bankedRegister (e : Encoded) (i : Nat) :
    ∃ op, Site.completed e (.operand .bankedRegister i) = [op] ∧
      StatusSide op ((bankedAt? e i).isSome = true) (accessAt e i) := by
  have hEdits : Site.completed e (.operand .bankedRegister i) =
      Edit.completedBy (bankedEdits e i) := rfl
  rw [hEdits]
  unfold bankedEdits
  dsimp only
  cases hBanked : bankedAt? e i with
  | some r =>
      unfold bankedAt? at hBanked
      rw [hBanked]
      exact ⟨_, rfl, nofun, ⟨fun _ => rfl, fun _ => ⟨_, rfl⟩⟩, fun _ _ => rfl⟩
  | none =>
      unfold bankedAt? at hBanked
      rw [hBanked]
      exact ⟨_, rfl, nofun, ⟨nofun, nofun⟩, nofun⟩

/-! ## Moves -/

/-- No site of a move looks back. -/
theorem looksBack_of_statusMove {t : Template} (ht : t ∈ templates) (hMove : t.name ∈ statusMoves) :
    ∀ site ∈ t.sites, site.looksBack = false := by
  rcases moveShape_of_mem_templates ht hMove with ⟨_, _, hSites⟩ | ⟨_, _, hSites⟩ | ⟨_, _, hSites⟩
  all_goals
    rw [hSites]
    decide

/-- The operands of a move, in the order in which they are written. -/
def moveOperands (e : Encoded) (status : Operand) : List Operand :=
  let core := Operand.ofRegister (registerAt e e.opcode.coreField) e.opcode.coreAccess
  if e.opcode.readsStatus then [core, status] else [status, core]

/-- A move to a status register reads the core register at the second field. -/
theorem completed_of_writesStatus {e : Encoded} {form : OperandForm} {status : Operand}
    (hTo : e.opcode.readsStatus = false) (hSlots : e.opcode.slots = [.num, .src, .num, .src])
    (hSites : e.opcode.sites = [.effect .predicate 2, .operand form 0, .operand .plain 1])
    (hCore : e.registerId e.opcode.coreField ≠ 0)
    (hStatus : Site.completed e (.operand form 0) = [status]) :
    e.opcode.sites.flatMap (Site.completed e) = moveOperands e status := by
  have hField : e.opcode.coreField = 1 := by
    rw [Template.coreField, hTo]
    rfl
  have hAccess : accessAt e 1 = e.opcode.coreAccess := by
    rw [accessAt, Template.coreAccess, hSlots, hTo]
    rfl
  rw [hField] at hCore
  have hPredicate : Site.completed e (.effect .predicate 2) = [] := rfl
  have hPlain := Site.completed_plain_of_register hCore
  rw [moveOperands, hTo, hField, ← hAccess, hSites]
  simp [hPredicate, hPlain, hStatus]

/-- A move from a status register writes the core register at the first field. -/
theorem completed_of_readsStatus {e : Encoded} {form : OperandForm} {status : Operand}
    (hFrom : e.opcode.readsStatus = true) (hSlots : e.opcode.slots = [.dst, .num, .num, .src])
    (hSites : e.opcode.sites = [.effect .predicate 2, .operand .plain 0, .operand form 1])
    (hCore : e.registerId e.opcode.coreField ≠ 0)
    (hStatus : Site.completed e (.operand form 1) = [status]) :
    e.opcode.sites.flatMap (Site.completed e) = moveOperands e status := by
  have hField : e.opcode.coreField = 0 := by
    rw [Template.coreField, hFrom]
    rfl
  have hAccess : accessAt e 0 = e.opcode.coreAccess := by
    rw [accessAt, Template.coreAccess, hSlots, hFrom]
    rfl
  rw [hField] at hCore
  have hPredicate : Site.completed e (.effect .predicate 2) = [] := rfl
  have hPlain := Site.completed_plain_of_register hCore
  rw [moveOperands, hFrom, hField, ← hAccess, hSites]
  simp [hPredicate, hPlain, hStatus]

/-- The sites of a move complete its two operands.  A status register is written through a
field mask, and a banked one is read. -/
theorem completed_statusMove {e : Encoded} (hTable : e.opcode ∈ templates)
    (hMove : e.opcode.name ∈ statusMoves) (hCore : e.registerId e.opcode.coreField ≠ 0) :
    ∃ status named access, e.opcode.sites.flatMap (Site.completed e) = moveOperands e status ∧
      StatusSide status named access ∧
      access = (if e.opcode.name ∈ ["MSR", "t2MSR_M"] then .writes else .reads) ∧
      ((named → access = e.opcode.statusAccess) ↔
        ¬ (e.opcode.name = "MSRbanked" ∧ (bankedAt? e 0).isSome = true)) := by
  rcases moveShape_of_mem_templates hTable hMove with
    ⟨hName, hSlots, hSites⟩ | ⟨hName, hSlots, hSites⟩ | ⟨hName, hSlots, hSites⟩
  · obtain ⟨status, hStatus, hSide⟩ := completed_statusMask e 0
    have hOther : e.opcode.name ≠ "MRSbanked" ∧ e.opcode.name ≠ "MSRbanked" := by
      have hEither : e.opcode.name = "MSR" ∨ e.opcode.name = "t2MSR_M" := by simpa using hName
      rcases hEither with hName | hName
      all_goals simp [hName]
    have hTo : e.opcode.readsStatus = false := beq_eq_false_iff_ne.mpr hOther.1
    refine ⟨status, _, _, completed_of_writesStatus hTo hSlots hSites hCore hStatus, hSide,
      (if_pos hName).symm, ?_⟩
    simp [Template.statusAccess, hTo, hOther.2]
  · obtain ⟨status, hStatus, hSide⟩ := completed_bankedRegister e 0
    have hTo : e.opcode.readsStatus = false := by
      rw [Template.readsStatus, hName]
      rfl
    -- The slot is that of an immediate, which is read although the register is written.
    have hAccess : accessAt e 0 = .reads := by
      rw [accessAt, hSlots]
      rfl
    refine ⟨status, _, _, completed_of_writesStatus hTo hSlots hSites hCore hStatus, hSide, ?_, ?_⟩
    · rw [hAccess, hName]
      rfl
    · simp [Template.statusAccess, hTo, hAccess, hName, Access.reads, Access.writes]
  · obtain ⟨status, hStatus, hSide⟩ := completed_bankedRegister e 1
    have hFrom : e.opcode.readsStatus = true := by
      rw [Template.readsStatus, hName]
      rfl
    have hAccess : accessAt e 1 = .reads := by
      rw [accessAt, hSlots]
      rfl
    refine ⟨status, _, _, completed_of_readsStatus hFrom hSlots hSites hCore hStatus, hSide, ?_, ?_⟩
    · rw [hAccess, hName]
      rfl
    · simp [Template.statusAccess, hFrom, hAccess, hName]

/-- An accepted move with a core register is filled with two operands, in every mode and at
every address.  The core register has the direction of the move.  A status register that is
named has it as well, unless it is a banked register that is written; this one is reported as
read. -/
theorem take_fill_statusMove {e : Encoded} {insn : Instruction} (hTable : e.opcode ∈ templates)
    (hMove : e.opcode.name ∈ statusMoves) (hBuild : Instruction.build e true = .ok insn)
    (hCore : e.registerId e.opcode.coreField ≠ 0) :
    ∃ (report : Report) (status : Operand),
      (insn.take .fill).result = .ok { e with report := some report } ∧
      report.operands.toList = moveOperands e status ∧
      (∀ r, status.value ≠ .register r) ∧
      (∀ s, status.value = .status s →
        status.access = if e.opcode.name ∈ ["MSR", "t2MSR_M"] then .writes else .reads) ∧
      ((∀ s, status.value = .status s → status.access = e.opcode.statusAccess) ↔
        ¬ (e.opcode.name = "MSRbanked" ∧ (bankedAt? e 0).isSome = true)) := by
  obtain ⟨report, hTake, _, hOperands⟩ :=
    Report.take_fill_of_additive hTable hBuild (looksBack_of_statusMove hTable hMove)
  obtain ⟨status, named, access, hCompleted, hSide, hAccess, hDirected⟩ :=
    completed_statusMove hTable hMove hCore
  refine ⟨report, status, hTake, hOperands.trans hCompleted, hSide.notRegister, ?_,
    hSide.directed_iff.trans hDirected⟩
  intro s hStatus
  rw [hSide.access s hStatus, hAccess]

/-- A move of a core register to the flags of the application status register. -/
def moveToFlags : Encoded where
  opcode := (templates.find? (·.name == "MSR")).get (by decide +kernel)
  fields := [.immediate 8, .register 32, .immediate 14, .register 0]

/-- The move reads the core register and writes the flags. -/
theorem take_fill_moveToFlags :
    moveToFlags.opcode ∈ templates ∧ moveToFlags.opcode.name ∈ statusMoves ∧
      Instruction.build moveToFlags true =
        .ok { moveToFlags with report := some (default : Report) } ∧
      moveToFlags.registerId moveToFlags.opcode.coreField ≠ 0 ∧
      ∃ (report : Report) (status : Operand),
        (Instruction.take { moveToFlags with report := some (default : Report) } .fill).result =
          .ok { moveToFlags with report := some report } ∧
        report.operands.toList = [status, .ofRegister ⟨32⟩ .reads] ∧
        ∀ s, status.value = .status s → status.access = .writes := by
  have hTable : moveToFlags.opcode ∈ templates := by
    dsimp only [moveToFlags]
    exact List.get_find?_mem _
  have hMove : moveToFlags.opcode.name ∈ statusMoves := by decide +kernel
  have hBuild : Instruction.build moveToFlags true =
      .ok { moveToFlags with report := some (default : Report) } := rfl
  have hCore : moveToFlags.registerId moveToFlags.opcode.coreField ≠ 0 := by decide +kernel
  obtain ⟨report, status, hTake, hOperands, _, hAccess, _⟩ :=
    take_fill_statusMove hTable hMove hBuild hCore
  exact ⟨hTable, hMove, hBuild, hCore, report, status, hTake, hOperands.trans rfl, hAccess⟩

/-- A move of a core register to the banked stack pointer of supervisor mode. -/
def moveToBankedStack : Encoded where
  opcode := (templates.find? (·.name == "MSRbanked")).get (by decide +kernel)
  fields := [.immediate 19, .register 32, .immediate 14, .register 0]

/-- The move writes the banked stack pointer, and reports it as read. -/
theorem take_fill_moveToBankedStack :
    moveToBankedStack.opcode ∈ templates ∧ moveToBankedStack.opcode.name = "MSRbanked" ∧
      Instruction.build moveToBankedStack true =
        .ok { moveToBankedStack with report := some (default : Report) } ∧
      moveToBankedStack.registerId moveToBankedStack.opcode.coreField ≠ 0 ∧
      moveToBankedStack.opcode.statusAccess = .writes ∧
      ∃ report : Report,
        (Instruction.take { moveToBankedStack with report := some (default : Report) }
          .fill).result = .ok { moveToBankedStack with report := some report } ∧
        report.operands.toList = [{ value := .status (.banked (.core .svc .sp)), access := .reads },
          .ofRegister ⟨32⟩ .reads] := by
  have hTable : moveToBankedStack.opcode ∈ templates := by
    dsimp only [moveToBankedStack]
    exact List.get_find?_mem _
  exact ⟨hTable, rfl, rfl, by decide +kernel, rfl, _, rfl, rfl⟩

end OperandReport.Arm
