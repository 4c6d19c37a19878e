import OperandReport.Proofs.Arm.Implicit
import OperandReport.Proofs.Arm.Steps
import OperandReport.Proofs.Power.Implicit
import OperandReport.Proofs.Power.Steps

/-!
# Filling again

An instruction is filled into the report that it carries, whatever that report holds from
before.  Nothing of it is left: the first step of the assembly replaces all of it, operands
that are open too, so that filling ends as it does on a fresh report, in the same report with
the same notes or in the same fault.  The steps of the assembly may as well be taken one by one.

Settling reads what it has itself written: the sets of the registers and of the groups.  But it
only adds to them, and what it adds is there the next time, so that settling once more changes
nothing.

## Main results

* `runAll_assembly`: on both architectures, the single steps on any report are one filling.
* `Report.finish_finish`: a report that is finished is left as it is.
* `Report.finish_of_room`: a report with room can be finished.
* `take_fill_finish_of_prior`: filling forgets, and finishing is idempotent.
-/

namespace OperandReport

namespace OrderedSet

variable {α : Type} [DecidableEq α] {capacity : Nat} {s : OrderedSet α capacity} {a : α}

/-- The set has `a`, or a place for it. -/
def HasRoomFor (s : OrderedSet α capacity) (a : α) : Prop :=
  a ∈ s.items ∨ s.items.length < capacity

theorem insert_of_hasRoomFor (h : s.HasRoomFor a) : ∃ t, s.insert a = .ok t := by
  cases hInsert : s.insert a with
  | ok t => exact ⟨t, rfl⟩
  | error f =>
      obtain ⟨hNew, hFull, _⟩ := insert_eq_error_iff.mp hInsert
      exact absurd h (not_or.mpr ⟨hNew, Nat.not_lt.mpr hFull⟩)

end OrderedSet

namespace Arm

/-! ## ARM -/

/-- The steps of a complete assembly. -/
def Template.assembly (t : Template) : List Step :=
  .initial :: (t.sites.map .visit ++ [.finish])

/-- The steps of the assembly, on whatever report, are one filling. -/
theorem runAll_assembly (e : Encoded) (prior : Report) :
    runAll (Report.take e) prior e.opcode.assembly = Report.fill e := by
  rw [Template.assembly, runAll_between]
  refine Outcome.bind_congr fun fresh _ => ?_
  rw [Report.visitAll_eq_runAll]
  rfl

theorem takeAll_assembly (e : Encoded) (prior : Report) :
    Instruction.takeAll { e with report := some prior } e.opcode.assembly =
      Instruction.take { e with report := some prior } .fill := by
  have hStep (report : Report) (step : Step) :
      Instruction.take { e with report := some report } step =
        (report.take e step).map fun report => { e with report := some report } := rfl
  rw [takeAll_eq_runAll]
  refine (runAll_embed hStep).trans ?_
  rw [runAll_assembly]
  rfl

namespace Effects

variable {t : Template} {operands : List Operand} {fx after : Effects}

/-- The groups have room for the one that settling may add. -/
def HasRoomToSettle (t : Template) (fx : Effects) : Prop :=
  t.jumps = true → fx.groups.HasRoomFor .jump

/-- Settling changes no register that is written, and the jump group is a member afterwards. -/
theorem settle_of_settled (h : Settled t operands fx after) :
    after.settle t operands = .ok after := by
  have hWrites : after.writes = fx.writes := by rw [← h.others]
  have hFlags := h.flags
  rw [← hWrites] at hFlags
  unfold settle
  dsimp only
  rw [← hFlags]
  by_cases hJumps : t.jumps = true
  · have hMem : .jump ∈ after.groups.items := by
      rw [h.groups, hJumps]
      exact Footprint.mem_mention.mpr (.inr rfl)
    rw [if_pos hJumps, addGroup, OrderedSet.insert_of_mem hMem]
    rfl
  · rw [if_neg hJumps]

theorem settle_of_room (hRoom : fx.HasRoomToSettle t) (operands : List Operand) :
    ∃ after, fx.settle t operands = .ok after := by
  unfold settle
  dsimp only
  by_cases hJumps : t.jumps = true
  · obtain ⟨groups, hInsert⟩ := OrderedSet.insert_of_hasRoomFor (hRoom hJumps)
    rw [if_pos hJumps, addGroup, hInsert]
    exact ⟨_, rfl⟩
  · rw [if_neg hJumps]
    exact ⟨_, rfl⟩

end Effects

/-- A report that is settled is settled as it is. -/
theorem Report.finish_finish {e : Encoded} {report after : Report}
    (h : report.finish e = .ok after) : after.finish e = .ok after := by
  have hClosed : report.operands.isOpen = false := (Report.finish_operands h).2
  rw [Report.finish, hClosed] at h
  obtain ⟨effects, hSettle, rfl⟩ := map_eq_ok_iff.mp h
  rw [Report.finish, hClosed, Effects.settle_of_settled (Effects.settle_settled hSettle)]
  rfl

theorem Report.finish_of_room {e : Encoded} {report : Report}
    (hClosed : report.operands.isOpen = false) (hRoom : report.effects.HasRoomToSettle e.opcode) :
    ∃ after, report.finish e = .ok after := by
  obtain ⟨effects, hSettle⟩ := Effects.settle_of_room hRoom report.operands.toList
  rw [Report.finish, hClosed, hSettle]
  exact ⟨_, rfl⟩

theorem take_finish {e : Encoded} {report after : Report} (h : report.finish e = .ok after) :
    Instruction.take { e with report := some report } .finish =
      .ok { e with report := some after } := by
  show (Outcome.ofResult (report.finish e)).map _ = _
  rw [h]
  rfl

theorem takeAll_finish_finish (e : Encoded) (report : Report) :
    Instruction.takeAll { e with report := some report } [.finish, .finish] =
      Instruction.take { e with report := some report } .finish := by
  rw [takeAll_eq_runAll]
  refine runAll_twice fun insn hInsn => ?_
  obtain ⟨after, hFinish, rfl⟩ := map_eq_ok_iff.mp hInsn
  exact take_finish (Report.finish_finish hFinish)

end Arm

namespace Power

/-! ## PowerPC -/

/-- The steps of a complete assembly. -/
def Template.assembly (t : Template) : List Step :=
  .initial :: (t.sites.map .visit ++ [.finish])

/-- The steps of the assembly, on whatever report, are one filling. -/
theorem runAll_assembly (e : Encoded) (prior : Report) :
    runAll (Report.take e) prior e.opcode.assembly = Report.fill e := by
  rw [Template.assembly, runAll_between]
  refine Outcome.bind_congr fun fresh _ => ?_
  rw [Report.visitAll_eq_runAll]
  rfl

theorem takeAll_assembly (e : Encoded) (prior : Report) :
    Instruction.takeAll { e with report := some prior } e.opcode.assembly =
      Instruction.take { e with report := some prior } .fill := by
  have hStep (report : Report) (step : Step) :
      Instruction.take { e with report := some report } step =
        (report.take e step).map fun report => { e with report := some report } := rfl
  refine (runAll_embed hStep).trans ?_
  rw [runAll_assembly]
  rfl

namespace Effects

variable {t : Template} {condition : Option Condition} {fx after : Effects}

/-- The sets have room for the members that settling may add. -/
structure HasRoomToSettle (t : Template) (condition : Option Condition) (fx : Effects) :
    Prop where
  reads : countsDown condition = true → fx.reads.HasRoomFor .ctr
  writes : countsDown condition = true → fx.writes.HasRoomFor .ctr
  groups : t.jumps = true → fx.groups.HasRoomFor .jump

/-- Settling adds nothing to the effects: the count register is listed where it is counted
down, the result is recorded if that follows from the registers that are written, and an
instruction that jumps is in the group of those. -/
structure Settled (t : Template) (condition : Option Condition) (fx : Effects) : Prop where
  reads : countsDown condition = true → .ctr ∈ fx.reads.items
  writes : countsDown condition = true → .ctr ∈ fx.writes.items
  recordsResult : fx.recordsResult = writesAny fx.writes.items [.conditionField 0]
  jump : t.jumps = true → .jump ∈ fx.groups.items

theorem mem_of_countDown (h : fx.countDown = .ok after) :
    .ctr ∈ after.reads.items ∧ .ctr ∈ after.writes.items := by
  obtain ⟨reads, writes, hReads, hWrites, rfl⟩ := countDown_eq_ok h
  rw [hReads, hWrites]
  exact ⟨Footprint.mem_mention.mpr (.inr rfl), Footprint.mem_mention.mpr (.inr rfl)⟩

/-- The result is recorded after the count register is listed, and adding the jump group
changes nothing of either. -/
theorem settled_of_settle (h : fx.settle t condition = .ok after) :
    after.Settled t condition := by
  obtain ⟨counted, hCounted, hRest⟩ := settle_eq_ok h
  have hListed : countsDown condition = true →
      .ctr ∈ counted.reads.items ∧ .ctr ∈ counted.writes.items := by
    intro hCounts
    rw [if_pos hCounts] at hCounted
    exact mem_of_countDown hCounted
  dsimp only at hRest
  by_cases hJumps : t.jumps = true
  · rw [if_pos hJumps] at hRest
    obtain ⟨groups, hItems, rfl⟩ := addGroup_eq_ok hRest
    have hMem : .jump ∈ groups.items := by
      rw [hItems]
      exact Footprint.mem_mention.mpr (.inr rfl)
    exact ⟨fun h => (hListed h).1, fun h => (hListed h).2, rfl, fun _ => hMem⟩
  · rw [if_neg hJumps] at hRest
    cases hRest
    exact ⟨fun h => (hListed h).1, fun h => (hListed h).2, rfl, fun h => absurd h hJumps⟩

theorem settle_of_settled (h : fx.Settled t condition) : fx.settle t condition = .ok fx := by
  have hCounted :
      (if condition.any Condition.decrementsCount then fx.countDown else .ok fx) = .ok fx := by
    by_cases hCounts : countsDown condition = true
    · refine (if_pos hCounts).trans ?_
      rw [countDown, OrderedSet.insert_of_mem (h.reads hCounts),
        OrderedSet.insert_of_mem (h.writes hCounts)]
      rfl
    · exact if_neg hCounts
  rw [settle_of_counted hCounted, ← h.recordsResult]
  dsimp only
  by_cases hJumps : t.jumps = true
  · rw [if_pos hJumps, addGroup, OrderedSet.insert_of_mem (h.jump hJumps)]
    rfl
  · rw [if_neg hJumps]

theorem countDown_of_room (hReads : fx.reads.HasRoomFor .ctr)
    (hWrites : fx.writes.HasRoomFor .ctr) :
    ∃ after, fx.countDown = .ok after ∧ after.groups = fx.groups := by
  obtain ⟨reads, hReads⟩ := OrderedSet.insert_of_hasRoomFor hReads
  obtain ⟨writes, hWrites⟩ := OrderedSet.insert_of_hasRoomFor hWrites
  rw [countDown, hReads, hWrites]
  exact ⟨_, rfl, rfl⟩

theorem settle_of_room (hRoom : fx.HasRoomToSettle t condition) :
    ∃ after, fx.settle t condition = .ok after := by
  have hCounted : ∃ counted,
      (if condition.any Condition.decrementsCount then fx.countDown else .ok fx) =
        .ok counted ∧ counted.groups = fx.groups := by
    by_cases hCounts : countsDown condition = true
    · obtain ⟨counted, hCount, hGroups⟩ :=
        countDown_of_room (hRoom.reads hCounts) (hRoom.writes hCounts)
      exact ⟨counted, (if_pos hCounts).trans hCount, hGroups⟩
    · exact ⟨fx, if_neg hCounts, rfl⟩
  obtain ⟨counted, hCount, hGroups⟩ := hCounted
  rw [settle_of_counted hCount]
  dsimp only
  by_cases hJumps : t.jumps = true
  · obtain ⟨groups, hInsert⟩ := OrderedSet.insert_of_hasRoomFor (hGroups ▸ hRoom.groups hJumps)
    rw [if_pos hJumps, addGroup, hInsert]
    exact ⟨_, rfl⟩
  · rw [if_neg hJumps]
    exact ⟨_, rfl⟩

end Effects

/-- A report that is settled is settled as it is. -/
theorem Report.finish_finish {e : Encoded} {report after : Report}
    (h : report.finish e = .ok after) : after.finish e = .ok after := by
  cases hOpen : report.operands.isOpen with
  | true =>
      rw [Report.finish, hOpen] at h
      contradiction
  | false =>
      rw [Report.finish_of_closed hOpen] at h
      obtain ⟨effects, hSettle, rfl⟩ := map_eq_ok_iff.mp h
      have hClosed : ({ report with effects } : Report).operands.isOpen = false := hOpen
      rw [Report.finish_of_closed hClosed,
        Effects.settle_of_settled (Effects.settled_of_settle hSettle)]
      rfl

theorem Report.finish_of_room {e : Encoded} {report : Report}
    (hClosed : report.operands.isOpen = false)
    (hRoom : report.effects.HasRoomToSettle e.opcode report.condition) :
    ∃ after, report.finish e = .ok after := by
  obtain ⟨effects, hSettle⟩ := Effects.settle_of_room hRoom
  rw [Report.finish_of_closed hClosed, hSettle]
  exact ⟨_, rfl⟩

theorem take_finish {e : Encoded} {report after : Report} (h : report.finish e = .ok after) :
    Instruction.take { e with report := some report } .finish =
      .ok { e with report := some after } := by
  show (Outcome.ofResult (report.finish e)).map _ = _
  rw [h]
  rfl

theorem takeAll_finish_finish (e : Encoded) (report : Report) :
    Instruction.takeAll { e with report := some report } [.finish, .finish] =
      Instruction.take { e with report := some report } .finish := by
  refine runAll_twice fun insn hInsn => ?_
  obtain ⟨after, hFinish, rfl⟩ := map_eq_ok_iff.mp hInsn
  exact take_finish (Report.finish_finish hFinish)

end Power

/-- On both architectures, filling ends on an instruction with any prior report as on the fresh
instruction that screening builds, in the same report with the same notes or in the same fault,
and the single steps of the assembly end likewise.  Finishing a report with nothing open, whose sets have room for
what it adds, gives a report that finishing once more gives again; and whatever finishing ends
in on any report, going on to finish it once more ends in the same. -/
theorem take_fill_finish_of_prior :
    (∀ (e : Arm.Encoded) (prior : Arm.Report),
      Arm.Instruction.take { e with report := some prior } .fill =
          Arm.Instruction.take (.ofEncoded e true) .fill ∧
        Arm.Instruction.takeAll { e with report := some prior } e.opcode.assembly =
          Arm.Instruction.take (.ofEncoded e true) .fill ∧
        (prior.operands.isOpen = false → prior.effects.HasRoomToSettle e.opcode →
          ∃ after : Arm.Report,
            Arm.Instruction.take { e with report := some prior } .finish =
                .ok { e with report := some after } ∧
              Arm.Instruction.take { e with report := some after } .finish =
                .ok { e with report := some after }) ∧
        Arm.Instruction.takeAll { e with report := some prior } [.finish, .finish] =
          Arm.Instruction.take { e with report := some prior } .finish) ∧
    ∀ (e : Power.Encoded) (prior : Power.Report),
      Power.Instruction.take { e with report := some prior } .fill =
          Power.Instruction.take (.ofEncoded e true) .fill ∧
        Power.Instruction.takeAll { e with report := some prior } e.opcode.assembly =
          Power.Instruction.take (.ofEncoded e true) .fill ∧
        (prior.operands.isOpen = false →
          prior.effects.HasRoomToSettle e.opcode prior.condition →
          ∃ after : Power.Report,
            Power.Instruction.take { e with report := some prior } .finish =
                .ok { e with report := some after } ∧
              Power.Instruction.take { e with report := some after } .finish =
                .ok { e with report := some after }) ∧
        Power.Instruction.takeAll { e with report := some prior } [.finish, .finish] =
          Power.Instruction.take { e with report := some prior } .finish := by
  constructor
  · intro e prior
    refine ⟨rfl, Arm.takeAll_assembly e prior, ?_, Arm.takeAll_finish_finish e prior⟩
    intro hClosed hRoom
    obtain ⟨after, hFinish⟩ := Arm.Report.finish_of_room hClosed hRoom
    exact ⟨after, Arm.take_finish hFinish, Arm.take_finish (Arm.Report.finish_finish hFinish)⟩
  · intro e prior
    refine ⟨rfl, Power.takeAll_assembly e prior, ?_, Power.takeAll_finish_finish e prior⟩
    intro hClosed hRoom
    obtain ⟨after, hFinish⟩ := Power.Report.finish_of_room hClosed hRoom
    exact ⟨after, Power.take_finish hFinish, Power.take_finish (Power.Report.finish_finish hFinish)⟩

/-- A branch while the count register is not zero. -/
def Power.branchWhileCounting : Power.Encoded where
  opcode := (Power.templates.find? (·.name == "BDNZ")).get (by decide +kernel)
  fields := [.immediate 16]

/-- A report that stopped with an operand open, in the middle of something else. -/
def Power.interrupted : Power.Report where
  operands := { pending := some { value := .memory {}, access := .reads } }
  condition := some (.decode 16 0)
  effects := { recordsResult := true, reads := ⟨[.lr]⟩ }

/-- Nothing of the interrupted report is left in the one that a branch is filled into.  Without
its open operand it can be finished: the count register and the jump group are added, and the
result is no longer recorded.  To finish it once more adds nothing. -/
theorem take_fill_finish_of_interrupted :
    Power.Instruction.take
        { Power.branchWhileCounting with report := some Power.interrupted } .fill =
      Power.Instruction.take (.ofEncoded Power.branchWhileCounting true) .fill ∧
    (∃ after : Power.Report,
      Power.Instruction.take { Power.branchWhileCounting with
          report := some { Power.interrupted with operands := .empty } } .finish =
        .ok { Power.branchWhileCounting with report := some after } ∧
      Power.Instruction.take { Power.branchWhileCounting with report := some after } .finish =
        .ok { Power.branchWhileCounting with report := some after } ∧
      after.effects.recordsResult = false ∧ after.effects.reads.items = [.lr, .ctr] ∧
      after.effects.writes.items = [.ctr] ∧ after.effects.groups.items = [.jump]) ∧
    ∃ after : Arm.Report,
      Arm.Instruction.take
          { Arm.loadWord with report := some { effects := { updatesFlags := true } } } .finish =
        .ok { Arm.loadWord with report := some after } ∧
      Arm.Instruction.take { Arm.loadWord with report := some after } .finish =
        .ok { Arm.loadWord with report := some after } ∧
      after.effects.updatesFlags = false := by
  obtain ⟨hArm, hPower⟩ := take_fill_finish_of_prior
  obtain ⟨hFill, _⟩ := hPower Power.branchWhileCounting Power.interrupted
  obtain ⟨_, _, hFinish, _⟩ :=
    hPower Power.branchWhileCounting { Power.interrupted with operands := .empty }
  have hRoom : Power.interrupted.effects.HasRoomToSettle Power.branchWhileCounting.opcode
      Power.interrupted.condition :=
    ⟨fun _ => .inr (by decide), fun _ => .inr (by decide), fun _ => .inr (by decide)⟩
  obtain ⟨after, hOnce, hTwice⟩ := hFinish rfl hRoom
  cases hOnce
  refine ⟨hFill, ⟨_, rfl, hTwice, rfl, rfl, rfl, rfl⟩, ?_⟩
  obtain ⟨_, _, hLoad, _⟩ := hArm Arm.loadWord { effects := { updatesFlags := true } }
  obtain ⟨loaded, hLoaded, hAgain⟩ := hLoad rfl nofun
  cases hLoaded
  exact ⟨_, rfl, hAgain, rfl⟩

end OperandReport
