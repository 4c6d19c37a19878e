import OperandReport.Arm.Effect
import OperandReport.Arm.Opcode
import OperandReport.Proofs.OrderedSet

/-!
# The effects stay within the table

The sets of implicit registers and of groups start from the template, and an effect
form adds at most one of a few fixed members to them: the status register and the
predication register to what is read, the status register to what is written, the
jump group to the groups.  Effects that are `Sound` for a template hold nothing else.

Every template of the table leaves room for these members, so no effect form finds a
set full, in whatever order and however often the forms are applied.

## Main results

* `Effects.ofTemplate_sound`, `Effects.apply_sound`, `Effects.settle_sound`: the
  three ways in which effects come about succeed and are sound.
* `hasRoom_of_mem_templates`: the table leaves room.
-/

namespace OperandReport.Arm

namespace Template

/-- The implicit registers that the instruction may read. -/
def readCandidates (t : Template) : List Register := t.reads ++ [.cpsr, .vpr]

/-- The implicit registers that the instruction may write. -/
def writeCandidates (t : Template) : List Register := t.writes ++ [.cpsr]

/-- The groups that the instruction may belong to. -/
def groupCandidates (t : Template) : List Group := t.groups ++ [.jump]

/-- The sets of a report hold all candidates. -/
structure HasRoom (t : Template) : Prop where
  reads : t.readCandidates.length ≤ 20
  writes : t.writeCandidates.length ≤ 20
  groups : t.groupCandidates.length ≤ 8

instance (t : Template) : Decidable t.HasRoom :=
  decidable_of_iff
    (t.readCandidates.length ≤ 20 ∧ t.writeCandidates.length ≤ 20 ∧
      t.groupCandidates.length ≤ 8)
    ⟨fun ⟨hReads, hWrites, hGroups⟩ => ⟨hReads, hWrites, hGroups⟩,
      fun h => ⟨h.reads, h.writes, h.groups⟩⟩

end Template

/-- Every template of the table leaves room for its candidates. -/
theorem hasRoom_of_mem_templates {t : Template} (ht : t ∈ templates) : t.HasRoom := by
  have hAll : ∀ t ∈ templates, t.HasRoom := by decide +kernel
  exact hAll t ht

namespace Effects

/-- The sets hold distinct candidates of the template and no terminator. -/
structure Sound (t : Template) (fx : Effects) : Prop where
  reads : fx.reads.Within t.readCandidates
  writes : fx.writes.Within t.writeCandidates
  groups : fx.groups.Within t.groupCandidates

theorem sound_default (t : Template) : ({} : Effects).Sound t where
  reads := OrderedSet.within_empty _
  writes := OrderedSet.within_empty _
  groups := OrderedSet.within_empty _

/-- The effects of a template with room are sound. -/
theorem ofTemplate_sound {t : Template} (hRoom : t.HasRoom) :
    ∃ fx, ofTemplate t = .ok fx ∧ fx.Sound t := by
  obtain ⟨reads, hReads, hReadsWithin⟩ :=
    OrderedSet.ofList_within (List.subset_append_left t.reads [.cpsr, .vpr]) hRoom.reads
  obtain ⟨writes, hWrites, hWritesWithin⟩ :=
    OrderedSet.ofList_within (List.subset_append_left t.writes [.cpsr]) hRoom.writes
  obtain ⟨groups, hGroups, hGroupsWithin⟩ :=
    OrderedSet.ofList_within (List.subset_append_left t.groups [.jump]) hRoom.groups
  refine ⟨{ reads, writes, groups, writeback := t.writeback, postIndexed := t.postIndexed,
            userMode := t.userMode }, ?_, ⟨hReadsWithin, hWritesWithin, hGroupsWithin⟩⟩
  simp only [ofTemplate, hReads, hWrites, hGroups]
  rfl

private theorem addRead_sound {t : Template} {fx : Effects} {r : Register} (hRoom : t.HasRoom)
    (hs : fx.Sound t) (hr : r = .cpsr ∨ r = .vpr) :
    ∃ after, fx.addRead r = .ok after ∧ after.Sound t := by
  have hMem : r ∈ t.readCandidates := by
    rcases hr with rfl | rfl <;> simp [Template.readCandidates]
  have hDefault : r ≠ default := by
    rcases hr with rfl | rfl <;> decide
  obtain ⟨reads, hInsert, hWithin⟩ :=
    OrderedSet.insert_within hs.reads hMem hDefault hRoom.reads
  refine ⟨{ fx with reads }, ?_, ⟨hWithin, hs.writes, hs.groups⟩⟩
  rw [addRead, hInsert]
  rfl

private theorem addWrite_sound {t : Template} {fx : Effects} (hRoom : t.HasRoom)
    (hs : fx.Sound t) : ∃ after, fx.addWrite .cpsr = .ok after ∧ after.Sound t := by
  have hMem : Register.cpsr ∈ t.writeCandidates := by
    simp [Template.writeCandidates]
  obtain ⟨writes, hInsert, hWithin⟩ :=
    OrderedSet.insert_within hs.writes hMem (by decide) hRoom.writes
  refine ⟨{ fx with writes }, ?_, ⟨hs.reads, hWithin, hs.groups⟩⟩
  rw [addWrite, hInsert]
  rfl

private theorem addJump_sound {t : Template} {fx : Effects} (hRoom : t.HasRoom)
    (hs : fx.Sound t) : ∃ after, fx.addGroup .jump = .ok after ∧ after.Sound t := by
  have hMem : Group.jump ∈ t.groupCandidates := by
    simp [Template.groupCandidates]
  obtain ⟨groups, hInsert, hWithin⟩ :=
    OrderedSet.insert_within hs.groups hMem (by decide) hRoom.groups
  refine ⟨{ fx with groups }, ?_, ⟨hs.reads, hs.writes, hWithin⟩⟩
  rw [addGroup, hInsert]
  rfl

/-- Every effect form succeeds on sound effects and keeps them sound. -/
theorem apply_sound {e : Encoded} {fx : Effects} (hRoom : e.opcode.HasRoom)
    (hs : fx.Sound e.opcode) (i : Nat) (form : EffectForm) :
    ∃ after, fx.apply e i form = .ok after ∧ after.Sound e.opcode := by
  have hSame : ∀ fx' : Effects, fx'.reads = fx.reads → fx'.writes = fx.writes →
      fx'.groups = fx.groups → fx'.Sound e.opcode := by
    intro fx' hReads hWrites hGroups
    exact ⟨hReads ▸ hs.reads, hWrites ▸ hs.writes, hGroups ▸ hs.groups⟩
  cases form with
  | flagSetter =>
      by_cases hZero : e.registerId i = 0
      · refine ⟨{ fx with writes := fx.writes.erase .cpsr }, by simp [apply, hZero], ?_⟩
        exact ⟨hs.reads, OrderedSet.erase_within hs.writes .cpsr, hs.groups⟩
      · obtain ⟨after, hAdd, hSound⟩ := addWrite_sound hRoom hs
        exact ⟨after, by simp [apply, hZero, hAdd], hSound⟩
  | predicate =>
      let condition := Condition.ofCode (e.immediate i).byte
      have hBase : ({ fx with condition := some condition } : Effects).Sound e.opcode :=
        hSame _ rfl rfl rfl
      by_cases hAlways : condition = .al
      · exact ⟨_, if_pos hAlways, hBase⟩
      · obtain ⟨after, hAdd, hSound⟩ := addRead_sound hRoom hBase (.inl rfl)
        exact ⟨after, (if_neg hAlways).trans hAdd, hSound⟩
  | vectorPredicate =>
      let side := VectorCondition.ofCode? (e.immediate i).toNat
      have hBase : ({ fx with vectorCondition := side } : Effects).Sound e.opcode :=
        hSame _ rfl rfl rfl
      by_cases hSide : side.isSome = true
      · obtain ⟨after, hAdd, hSound⟩ := addRead_sound hRoom hBase (.inr rfl)
        exact ⟨after, (if_pos hSide).trans hAdd, hSound⟩
      · exact ⟨_, if_neg hSide, hBase⟩
  | mandatoryPredicate | restrictedPredicate | interruptMode | interruptMask | memoryBarrier
  | instructionBarrier | traceBarrier | blockMask | vectorBlockMask =>
      exact ⟨_, rfl, hSame _ rfl rfl rfl⟩

/-- Settling succeeds on sound effects and keeps them sound. -/
theorem settle_sound {t : Template} {fx : Effects} (hRoom : t.HasRoom) (hs : fx.Sound t)
    (operands : List Operand) : ∃ after, fx.settle t operands = .ok after ∧ after.Sound t := by
  let flagged : Effects :=
    { fx with
      updatesFlags := operands.any Operand.writesFlags || writesAny fx.writes.items flagRegisters }
  have hFlagged : flagged.Sound t := ⟨hs.reads, hs.writes, hs.groups⟩
  by_cases hJumps : t.jumps = true
  · obtain ⟨after, hAdd, hSound⟩ := addJump_sound hRoom hFlagged
    exact ⟨after, (if_pos hJumps).trans hAdd, hSound⟩
  · exact ⟨flagged, if_neg hJumps, hFlagged⟩

end Effects

end OperandReport.Arm
