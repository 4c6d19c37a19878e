import OperandReport.Proofs.Power.Fill

/-!
# Implicit effects

Besides its operands, a PowerPC instruction reads and writes registers that its template
lists, and belongs to groups that the template lists.  No site changes these effects.
Settling adds the count register on both sides, if the final condition counts down, and the
jump group to those of a branch.

The lists of the table are free of duplicates and terminators, so the effects of a filled
report are these lists themselves, with what settling adds.

## Main results

* `tidy_of_mem_templates`: what the table promises of its lists.
* `Report.fill_implicit`: the implicit effects of a filled report.
-/

namespace OperandReport.Power

open Footprint (mention)

namespace Template

/-- The lists of the template have distinct entries, and none is the terminator. -/
structure Tidy (t : Template) : Prop where
  reads : t.reads.Nodup ∧ default ∉ t.reads
  writes : t.writes.Nodup ∧ default ∉ t.writes
  groups : t.groups.Nodup ∧ default ∉ t.groups

instance (t : Template) : Decidable t.Tidy :=
  decidable_of_iff
    ((t.reads.Nodup ∧ default ∉ t.reads) ∧ (t.writes.Nodup ∧ default ∉ t.writes) ∧
      t.groups.Nodup ∧ default ∉ t.groups)
    ⟨fun ⟨hReads, hWrites, hGroups⟩ => ⟨hReads, hWrites, hGroups⟩,
      fun h => ⟨h.reads, h.writes, h.groups⟩⟩

end Template

/-- Every template of the table has tidy lists. -/
theorem tidy_of_mem_templates {t : Template} (ht : t ∈ templates) : t.Tidy := by
  have hAll : ∀ t ∈ templates, t.Tidy := by decide +kernel
  exact hAll t ht

/-- The branch that has the condition decrements the count register. -/
def countsDown (condition : Option Condition) : Bool := condition.any Condition.decrementsCount

namespace Effects

/-- The effects are those that the template lists, and what settling them on a condition
adds. -/
structure ImplicitOf (t : Template) (condition : Option Condition) (fx : Effects) : Prop where
  reads : fx.reads.items = if countsDown condition then mention t.reads .ctr else t.reads
  writes : fx.writes.items = if countsDown condition then mention t.writes .ctr else t.writes
  groups : fx.groups.items = if t.jumps then mention t.groups .jump else t.groups
  writeback : fx.writeback = t.writeback
  recordsResult : fx.recordsResult = writesAny fx.writes.items [.conditionField 0]

/-- The effects of a tidy template are its lists. -/
theorem ofTemplate_items {t : Template} {fx : Effects} (hTidy : t.Tidy)
    (h : ofTemplate t = .ok fx) :
    fx.reads.items = t.reads ∧ fx.writes.items = t.writes ∧ fx.groups.items = t.groups ∧
      fx.writeback = t.writeback := by
  obtain ⟨reads, hReads, h⟩ := bind_eq_ok_iff.mp h
  obtain ⟨writes, hWrites, h⟩ := bind_eq_ok_iff.mp h
  obtain ⟨groups, hGroups, h⟩ := bind_eq_ok_iff.mp h
  cases h
  exact ⟨OrderedSet.items_of_ofList hTidy.reads.1 hTidy.reads.2 hReads,
    OrderedSet.items_of_ofList hTidy.writes.1 hTidy.writes.2 hWrites,
    OrderedSet.items_of_ofList hTidy.groups.1 hTidy.groups.2 hGroups, rfl⟩

/-- Counting down mentions the count register on both sides. -/
theorem countDown_eq_ok {fx after : Effects} (h : fx.countDown = .ok after) :
    ∃ reads writes, reads.items = mention fx.reads.items .ctr ∧
      writes.items = mention fx.writes.items .ctr ∧ after = { fx with reads, writes } := by
  obtain ⟨reads, hReads, h⟩ := bind_eq_ok_iff.mp h
  obtain ⟨writes, hWrites, rfl⟩ := OrderedSet.bind_insert_eq_ok h
  exact ⟨reads, writes, OrderedSet.items_of_insert hReads, hWrites, rfl⟩

theorem addGroup_eq_ok {fx after : Effects} {g : Group} (h : fx.addGroup g = .ok after) :
    ∃ groups, groups.items = mention fx.groups.items g ∧ after = { fx with groups } :=
  OrderedSet.bind_insert_eq_ok h

/-- Settling counts down first, and then adds the jump group to what that leaves. -/
theorem settle_eq_ok {t : Template} {condition : Option Condition} {fx after : Effects}
    (h : fx.settle t condition = .ok after) :
    ∃ counted : Effects,
      (if countsDown condition then fx.countDown else .ok fx) = .ok counted ∧
      (let recorded : Effects :=
          { counted with recordsResult := writesAny counted.writes.items [.conditionField 0] }
        if t.jumps then recorded.addGroup .jump else .ok recorded) = .ok after := by
  cases hCount : (if countsDown condition then fx.countDown else .ok fx) with
  | ok counted => exact ⟨counted, rfl, (settle_of_counted hCount).symm.trans h⟩
  | error f =>
      unfold settle at h
      by_cases hCounts : countsDown condition = true
      · rw [if_pos hCounts] at hCount
        rw [if_pos (show condition.any Condition.decrementsCount = true from hCounts), hCount] at h
        contradiction
      · rw [if_neg hCounts] at hCount
        contradiction

/-- Settling the effects of a tidy template. -/
theorem settle_implicit {t : Template} {condition : Option Condition} {fresh fx : Effects}
    (hTidy : t.Tidy) (hFresh : ofTemplate t = .ok fresh)
    (h : fresh.settle t condition = .ok fx) : fx.ImplicitOf t condition := by
  obtain ⟨hReads, hWrites, hGroups, hWriteback⟩ := ofTemplate_items hTidy hFresh
  obtain ⟨counted, hCount, hSettle⟩ := settle_eq_ok h
  have hCounted :
      counted.reads.items = (if countsDown condition then mention t.reads .ctr else t.reads) ∧
      counted.writes.items = (if countsDown condition then mention t.writes .ctr else t.writes) ∧
      counted.groups.items = t.groups ∧ counted.writeback = t.writeback := by
    cases hCounts : countsDown condition with
    | true =>
        obtain ⟨reads, writes, hReadItems, hWriteItems, rfl⟩ :=
          countDown_eq_ok ((if_pos hCounts).symm.trans hCount)
        exact ⟨hReads ▸ hReadItems, hWrites ▸ hWriteItems, hGroups, hWriteback⟩
    | false =>
        cases (if_neg (Bool.eq_false_iff.mp hCounts)).symm.trans hCount
        exact ⟨hReads, hWrites, hGroups, hWriteback⟩
  obtain ⟨hCountedReads, hCountedWrites, hCountedGroups, hCountedBack⟩ := hCounted
  cases hJumps : t.jumps with
  | true =>
      obtain ⟨groups, hItems, rfl⟩ := addGroup_eq_ok ((if_pos hJumps).symm.trans hSettle)
      rw [hCountedGroups] at hItems
      exact ⟨hCountedReads, hCountedWrites, hItems.trans (if_pos hJumps).symm, hCountedBack, rfl⟩
  | false =>
      have hNot := Bool.eq_false_iff.mp hJumps
      cases (if_neg hNot).symm.trans hSettle
      exact ⟨hCountedReads, hCountedWrites, hCountedGroups.trans (if_neg hNot).symm,
        hCountedBack, rfl⟩

end Effects

/-- The effects of a filled report are the implicit ones of its template and its
condition. -/
theorem Report.fill_implicit {e : Encoded} {report : Report} (hTable : e.opcode ∈ templates)
    (h : (fill e).result = .ok report) :
    report.effects.ImplicitOf e.opcode report.condition := by
  obtain ⟨condition, fresh, effects, _, hFresh, hSettle, hFill⟩ :=
    Report.fill_of_wellFormed (wellFormed_of_mem_templates hTable)
  cases hFill.symm.trans h
  exact Effects.settle_implicit (tidy_of_mem_templates hTable) hFresh hSettle

end OperandReport.Power
