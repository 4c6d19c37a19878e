import OperandReport.Power.Effect
import OperandReport.Power.Opcode
import OperandReport.Proofs.OrderedSet

/-!
# PowerPC conditions and effects

A branch condition is always decoded from two numbers, whatever registers and
immediates they come from, and only its hint may be changed afterwards: such a condition is
`Decoded`.  It has five-bit fields and names the condition field that its bit lies in.

The effects start from the template.  Settling adds the count register to what is read
and written, if the condition counts down, and the jump group to the groups of a branch.
Effects that are `Sound` for a template hold nothing else, and every template of the
table leaves room for these members.

## Main results

* `Condition.ofTemplate_decoded`, `ConditionForm.apply_decoded`: conditions are decoded.
* `Effects.ofTemplate_sound`, `Effects.settle_sound`: effects come about without a fault.
-/

namespace OperandReport.Power

/-! ## Conditions -/

/-- The index of a register lies within its family. -/
theorem Register.index?_lt {r : Register} {family : Family} (h : r.family? = some family) :
    r.index?.getD 0 < family.count := by
  have hHolds := Family.holds_iff.mp (List.find?_some (p := (Family.holds · r)) h)
  unfold index?
  rw [h]
  cases family with
  | special => exact Nat.zero_lt_succ 7
  | general | floating | vector | vectorScalar | conditionField | conditionBit =>
      show r.id - _ < _
      omega

namespace Condition

/-- The fields are five bits wide, and the condition field is the one of the bit. -/
structure Sound (c : Condition) : Prop where
  bo : c.bo < 32
  bi : c.bi < 32
  field : ∃ n, n < 8 ∧ n = c.bi / 4 ∧ c.field = .conditionField n

/-- Every field but the hint is what decoding `bo` and `bi` gives, and both are five bits
wide. -/
structure Decoded (c : Condition) : Prop where
  bo : c.bo < 32
  bi : c.bi < 32
  decoded : c = { decode c.bo c.bi with hint := c.hint }

/-- The low five bits of two numbers give the same condition. -/
theorem decode_mod (bo bi : Nat) : decode (bo % 32) (bi % 32) = decode bo bi := by
  have hPlace : ConditionBit.ofPlace (bi % 32) = .ofPlace bi := by
    rw [ConditionBit.ofPlace, show bi % 32 % 4 = bi % 4 by omega, ConditionBit.ofPlace]
  have hIgnore : bo % 32 / 16 % 2 = bo / 16 % 2 := by omega
  have hWanted : bo % 32 / 8 % 2 = bo / 8 % 2 := by omega
  have hKeep : bo % 32 / 4 % 2 = bo / 4 % 2 := by omega
  have hZero : bo % 32 / 2 % 2 = bo / 2 % 2 := by omega
  have hPrediction : predictionBits (bo % 32) = predictionBits bo := by
    have hLow : bo % 32 % 4 = bo % 4 := by omega
    have hLast : bo % 32 % 2 = bo % 2 := by omega
    simp only [predictionBits, hIgnore, hWanted, hKeep, hLow, hLast]
  simp only [decode, hPlace, hIgnore, hWanted, hKeep, hZero, hPrediction, Nat.mod_mod]

theorem decode_decoded (bo bi : Nat) : (decode bo bi).Decoded where
  bo := bo_lt bo bi
  bi := bi_lt bo bi
  decoded := by
    show decode bo bi = { decode (bo % 32) (bi % 32) with hint := (decode bo bi).hint }
    rw [decode_mod]

/-- A hint changes no other field. -/
theorem Decoded.withHint {c : Condition} (h : c.Decoded) (hint : Hint) :
    { c with hint }.Decoded where
  bo := h.bo
  bi := h.bi
  decoded := congrArg ({ · with hint }) h.decoded

theorem Decoded.sound {c : Condition} (h : c.Decoded) : c.Sound where
  bo := h.bo
  bi := h.bi
  field := by
    have hBit := h.bi
    have hField : c.field = .conditionField (c.bi % 32 / 4) := congrArg field h.decoded
    rw [Nat.mod_eq_of_lt hBit] at hField
    exact ⟨c.bi / 4, by omega, rfl, hField⟩

theorem ofPredicate_decoded (code : Nat) (r : Register) : (ofPredicate code r).Decoded := by
  unfold ofPredicate
  split
  · exact decode_decoded _ _
  · split
    · exact decode_decoded _ _
    · exact decode_decoded _ _

/-- The place in the condition register that a predicate code selects in a field; any
register but a condition field counts as the first one. -/
def predicateBit (code : Nat) (r : Register) : Nat :=
  4 * (if r.family? = some .conditionField then r.index?.getD 0 else 0) + code / 32 % 4

/-- A predicate code selects one of the 32 bits, so nothing of it is cut off. -/
theorem predicateBit_lt (code : Nat) (r : Register) : predicateBit code r < 32 := by
  unfold predicateBit
  split
  · next hFamily =>
    have hIndex := Register.index?_lt hFamily
    have hFields : Register.Family.conditionField.count = 8 := rfl
    omega
  · omega

/-- A field of a branch condition always has a value. -/
theorem read_progress (e : Encoded) (source : ConditionSource) :
    ∃ n, (source.read e).result = .ok n := by
  cases source with
  | constant n => exact ⟨n, rfl⟩
  | slot i =>
      simp only [ConditionSource.read]
      split
      · exact ⟨_, rfl⟩
      · exact ⟨_, rfl⟩
      · split
        · exact ⟨_, rfl⟩
        · exact ⟨_, rfl⟩

/-- The condition that a template spells out comes about without a fault. -/
theorem ofTemplate_decoded (e : Encoded) :
    ∃ condition, (ofTemplate e).result = .ok condition ∧ ∀ c ∈ condition, c.Decoded := by
  unfold ofTemplate
  split
  · exact ⟨none, rfl, nofun⟩
  · next bo bi _ =>
    obtain ⟨m, hBo⟩ := read_progress e bo
    obtain ⟨n, hBi⟩ := read_progress e bi
    refine ⟨some (decode m n), ?_, ?_⟩
    · rw [Outcome.result_bind_ok hBo, Outcome.result_bind_ok hBi]
      rfl
    · intro c hc
      cases hc
      exact decode_decoded m n

end Condition

/-- After a condition form the condition is still a decoded one. -/
theorem ConditionForm.apply_decoded (e : Encoded) (i : Nat) (form : ConditionForm)
    {condition : Option Condition} (h : ∀ c ∈ condition, c.Decoded) :
    ∀ c ∈ form.apply e i condition, c.Decoded := by
  have hHinted : ∀ hint : Hint, ∀ c ∈ condition.map ({ · with hint }), c.Decoded := by
    intro hint c hc
    obtain ⟨old, hOld, rfl⟩ := Option.map_eq_some_iff.mp hc
    exact (h old hOld).withHint hint
  cases form with
  | predicate =>
      intro c hc
      cases hc
      exact Condition.ofPredicate_decoded _ _
  | predicateHint =>
      simp only [apply]
      split
      · exact h
      · exact hHinted _
  | hint => exact hHinted _

/-! ## Effects -/

namespace Template

/-- The implicit registers that the instruction may read. -/
def readCandidates (t : Template) : List Register := t.reads ++ [.ctr]

/-- The implicit registers that the instruction may write. -/
def writeCandidates (t : Template) : List Register := t.writes ++ [.ctr]

/-- The groups that the instruction may belong to. -/
def groupCandidates (t : Template) : List Group := t.groups ++ [.jump]

/-- The sets of a report hold all candidates. -/
structure HasRoom (t : Template) : Prop where
  reads : t.readCandidates.length ≤ 20
  writes : t.writeCandidates.length ≤ 20
  groups : t.groupCandidates.length ≤ 8

instance (t : Template) : Decidable t.HasRoom :=
  decidable_of_iff
    (t.readCandidates.length ≤ 20 ∧ t.writeCandidates.length ≤ 20 ∧
      t.groupCandidates.length ≤ 8)
    ⟨fun ⟨hReads, hWrites, hGroups⟩ => ⟨hReads, hWrites, hGroups⟩,
      fun h => ⟨h.reads, h.writes, h.groups⟩⟩

end Template

namespace Effects

/-- The sets hold distinct candidates of the template and no terminator. -/
structure Sound (t : Template) (fx : Effects) : Prop where
  reads : fx.reads.Within t.readCandidates
  writes : fx.writes.Within t.writeCandidates
  groups : fx.groups.Within t.groupCandidates

theorem sound_default (t : Template) : (default : Effects).Sound t where
  reads := OrderedSet.within_empty _
  writes := OrderedSet.within_empty _
  groups := OrderedSet.within_empty _

/-- Recording the result touches no set. -/
theorem Sound.withRecord {t : Template} {fx : Effects} (hs : fx.Sound t) (recordsResult : Bool) :
    Sound t { fx with recordsResult } :=
  ⟨hs.reads, hs.writes, hs.groups⟩

/-- The effects of a template with room are sound, and its groups are listed ones. -/
theorem ofTemplate_sound {t : Template} (hRoom : t.HasRoom) :
    ∃ fx, ofTemplate t = .ok fx ∧ fx.Sound t ∧ fx.groups.items ⊆ t.groups := by
  obtain ⟨reads, hReads, hReadsWithin⟩ :=
    OrderedSet.ofList_within (List.subset_append_left t.reads [.ctr]) hRoom.reads
  obtain ⟨writes, hWrites, hWritesWithin⟩ :=
    OrderedSet.ofList_within (List.subset_append_left t.writes [.ctr]) hRoom.writes
  have hListed : t.groups.length ≤ 8 := by
    have hGroups := hRoom.groups
    simp only [Template.groupCandidates, List.length_append, List.length_singleton] at hGroups
    omega
  obtain ⟨groups, hGroups, hGroupsWithin⟩ :=
    OrderedSet.ofList_within (List.Subset.refl t.groups) hListed
  refine ⟨{ reads, writes, groups, writeback := t.writeback }, ?_, ?_, hGroupsWithin.subset⟩
  · simp only [ofTemplate, hReads, hWrites, hGroups]
    rfl
  · exact ⟨hReadsWithin, hWritesWithin, hGroupsWithin.mono (List.subset_append_left _ _)⟩

/-- The count register finds room among what is read and what is written. -/
theorem countDown_sound {t : Template} {fx : Effects} (hRoom : t.HasRoom) (hs : fx.Sound t) :
    ∃ after, fx.countDown = .ok after ∧ after.Sound t ∧ after.groups = fx.groups := by
  have hReadable : Register.ctr ∈ t.readCandidates := by simp [Template.readCandidates]
  have hWritable : Register.ctr ∈ t.writeCandidates := by simp [Template.writeCandidates]
  obtain ⟨reads, hReads, hReadsWithin⟩ :=
    OrderedSet.insert_within hs.reads hReadable (by decide) hRoom.reads
  obtain ⟨writes, hWrites, hWritesWithin⟩ :=
    OrderedSet.insert_within hs.writes hWritable (by decide) hRoom.writes
  refine ⟨{ fx with reads, writes }, ?_, ⟨hReadsWithin, hWritesWithin, hs.groups⟩, rfl⟩
  rw [countDown, hReads, hWrites]
  rfl

/-- The jump group finds room, and is a member from then on. -/
theorem addJump_sound {t : Template} {fx : Effects} (hRoom : t.HasRoom) (hs : fx.Sound t) :
    ∃ after, fx.addGroup .jump = .ok after ∧ after.Sound t ∧ .jump ∈ after.groups.items := by
  have hMem : Group.jump ∈ t.groupCandidates := by simp [Template.groupCandidates]
  obtain ⟨groups, hInsert, hWithin⟩ :=
    OrderedSet.insert_within hs.groups hMem (by decide) hRoom.groups
  refine ⟨{ fx with groups }, ?_, ⟨hs.reads, hs.writes, hWithin⟩, ?_⟩
  · rw [addGroup, hInsert]
    rfl
  · exact (OrderedSet.mem_of_insert hInsert).mpr (.inr rfl)

/-- Counting down comes first; the recorded result and the jump group are settled on what
it leaves. -/
theorem settle_of_counted {t : Template} {fx counted : Effects} {condition : Option Condition}
    (h : (if condition.any Condition.decrementsCount then fx.countDown else .ok fx) =
      .ok counted) :
    fx.settle t condition =
      let recorded : Effects :=
        { counted with recordsResult := writesAny counted.writes.items [.conditionField 0] }
      if t.jumps then recorded.addGroup .jump else .ok recorded := by
  unfold settle
  by_cases hCounts : condition.any Condition.decrementsCount = true
  · rw [if_pos hCounts] at h
    rw [if_pos hCounts, h]
    rfl
  · rw [if_neg hCounts] at h
    rw [if_neg hCounts, h]
    rfl

/-- Settling succeeds on sound effects, keeps them sound, and adds the jump group just
where the template jumps. -/
theorem settle_sound {t : Template} {fx : Effects} (hRoom : t.HasRoom) (hs : fx.Sound t)
    (condition : Option Condition) :
    ∃ after, fx.settle t condition = .ok after ∧ after.Sound t ∧
      (.jump ∈ after.groups.items ↔ .jump ∈ fx.groups.items ∨ t.jumps = true) := by
  have hCounted : ∃ counted,
      (if condition.any Condition.decrementsCount then fx.countDown else .ok fx) = .ok counted ∧
        counted.Sound t ∧ counted.groups = fx.groups := by
    split
    · exact countDown_sound hRoom hs
    · exact ⟨fx, rfl, hs, rfl⟩
  obtain ⟨counted, hCount, hSound, hGroups⟩ := hCounted
  rw [settle_of_counted hCount, ← hGroups]
  dsimp only
  split
  · next hJumps =>
    obtain ⟨after, hAdd, hAfter, hMem⟩ := addJump_sound hRoom (hSound.withRecord _)
    exact ⟨after, hAdd, hAfter, by simp [hMem, hJumps]⟩
  · next hJumps => exact ⟨_, rfl, hSound.withRecord _, by simp [hJumps]⟩

end Effects

end OperandReport.Power
