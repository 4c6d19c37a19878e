import OperandReport.Proofs.Arm.Fill

/-!
# Implicit effects

Besides its operands, an instruction reads and writes registers that no operand names,
belongs to groups, and may carry a condition.  These effects start from the template,
a few sites change them, and settling adds the jump group.

What one site makes of them is said by three functions, one for each part that can
change: `Site.readsAfter`, `Site.writesAfter` and `Site.conditionAfter`.  A run over
sites folds them (`Report.visitAll_follows`).  In the table at most one site of a
template settles what is read, and at most one settles what is written, so the folds
have closed forms in terms of the template and the fields.

## Main results

* `Report.fill_implicit`: the implicit effects of a filled report.
* `take_fill_implicit`: the same for a filled instruction, and which sites change
  which part.
-/

namespace OperandReport.Arm

open Footprint (mention)

/-- The list with an entry at its end, where one is called for and not there yet. -/
def mentionIf {α : Type} [DecidableEq α] (xs : List α) (called : Bool) (a : α) : List α :=
  if called then mention xs a else xs

/-! ## One site -/

namespace Site

/-- The site makes the instruction depend on the status flags: it is a predicate, and its
code is not "always". -/
def predicates (e : Encoded) : Site → Bool
  | effect .predicate i => (e.immediate i).toNat % 16 != 14
  | _ => false

/-- The site puts the instruction on one side of a block of predicated vector
instructions. -/
def takesSide (e : Encoded) : Site → Bool
  | effect .vectorPredicate i => e.immediate i == 1 || e.immediate i == 2
  | _ => false

/-- The site may add to the registers that are read. -/
def settlesReads : Site → Bool
  | effect .predicate _ | effect .vectorPredicate _ => true
  | _ => false

/-- The site adds to the registers that are written, or takes one out. -/
def settlesWrites : Site → Bool
  | effect .flagSetter _ => true
  | _ => false

/-- The site gives the instruction a condition. -/
def settlesCondition : Site → Bool
  | effect .predicate _ | effect .mandatoryPredicate _ | effect .restrictedPredicate _ => true
  | _ => false

/-- What the site makes of the registers that are read. -/
def readsAfter (e : Encoded) (xs : List Register) (site : Site) : List Register :=
  mentionIf (mentionIf xs (site.predicates e) .cpsr) (site.takesSide e) .vpr

/-- What the site makes of the registers that are written. -/
def writesAfter (e : Encoded) (xs : List Register) : Site → List Register
  | effect .flagSetter i => if e.registerId i = 0 then xs.erase .cpsr else mention xs .cpsr
  | _ => xs

/-- What the site makes of the condition. -/
def conditionAfter (e : Encoded) (c : Option Condition) : Site → Option Condition
  | effect .predicate i | effect .mandatoryPredicate i | effect .restrictedPredicate i =>
    some (.ofCode (e.immediate i).byte)
  | _ => c

theorem readsAfter_of_not_settlesReads {e : Encoded} {site : Site} (xs : List Register)
    (h : site.settlesReads = false) : site.predicates e = false ∧ site.takesSide e = false ∧
      readsAfter e xs site = xs := by
  cases site with
  | operand form i => exact ⟨rfl, rfl, rfl⟩
  | effect form i => cases form <;> first | contradiction | exact ⟨rfl, rfl, rfl⟩

theorem writesAfter_of_not_settlesWrites {e : Encoded} {site : Site} (xs : List Register)
    (h : site.settlesWrites = false) : writesAfter e xs site = xs := by
  cases site with
  | operand form i => rfl
  | effect form i => cases form <;> first | contradiction | rfl

theorem conditionAfter_of_not_settlesCondition {e : Encoded} {site : Site} (c : Option Condition)
    (h : site.settlesCondition = false) : conditionAfter e c site = c := by
  cases site with
  | operand form i => rfl
  | effect form i => cases form <;> first | contradiction | rfl

theorem isSome_conditionAfter (e : Encoded) (c : Option Condition) (site : Site) :
    (conditionAfter e c site).isSome = (c.isSome || site.settlesCondition) := by
  cases site with
  | operand form i => exact (Bool.or_false _).symm
  | effect form i => cases form <;> simp [conditionAfter, settlesCondition]

end Site

namespace Effects

/-- The effects follow from earlier ones by way of the sites in between. -/
structure Follows (e : Encoded) (sites : List Site) (fx after : Effects) : Prop where
  reads : after.reads.items = sites.foldl (Site.readsAfter e) fx.reads.items
  writes : after.writes.items = sites.foldl (Site.writesAfter e) fx.writes.items
  condition : after.condition = sites.foldl (Site.conditionAfter e) fx.condition
  groups : after.groups = fx.groups
  writeback : after.writeback = fx.writeback
  postIndexed : after.postIndexed = fx.postIndexed
  userMode : after.userMode = fx.userMode

theorem Follows.refl (e : Encoded) (fx : Effects) : Follows e [] fx fx :=
  ⟨rfl, rfl, rfl, rfl, rfl, rfl, rfl⟩

theorem Follows.cons {e : Encoded} {site : Site} {rest : List Site} {fx next after : Effects}
    (hFirst : Follows e [site] fx next) (hRest : Follows e rest next after) :
    Follows e (site :: rest) fx after where
  reads := by
    rw [hRest.reads, hFirst.reads]
    rfl
  writes := by
    rw [hRest.writes, hFirst.writes]
    rfl
  condition := by
    rw [hRest.condition, hFirst.condition]
    rfl
  groups := hRest.groups.trans hFirst.groups
  writeback := hRest.writeback.trans hFirst.writeback
  postIndexed := hRest.postIndexed.trans hFirst.postIndexed
  userMode := hRest.userMode.trans hFirst.userMode

theorem addRead_eq_ok {fx after : Effects} {r : Register} (h : fx.addRead r = .ok after) :
    ∃ reads, reads.items = mention fx.reads.items r ∧ after = { fx with reads } :=
  OrderedSet.bind_insert_eq_ok h

theorem addWrite_eq_ok {fx after : Effects} {r : Register} (h : fx.addWrite r = .ok after) :
    ∃ writes, writes.items = mention fx.writes.items r ∧ after = { fx with writes } :=
  OrderedSet.bind_insert_eq_ok h

theorem addGroup_eq_ok {fx after : Effects} {g : Group} (h : fx.addGroup g = .ok after) :
    ∃ groups, groups.items = mention fx.groups.items g ∧ after = { fx with groups } :=
  OrderedSet.bind_insert_eq_ok h

/-- A predicate depends on the status flags unless its condition is "always". -/
private theorem predicates_eq (e : Encoded) (i : Nat) :
    (Site.effect .predicate i).predicates e =
      !decide (Condition.ofCode (e.immediate i).byte = .al) := by
  have hCode : (e.immediate i).byte % 16 = (e.immediate i).toNat % 16 := by
    simp only [Imm.byte]
    omega
  show ((e.immediate i).toNat % 16 != 14) = _
  rw [Bool.eq_iff_iff]
  simp [Condition.ofCode_eq_al_iff, hCode]

/-- A vector predicate takes a side just when its code names one. -/
private theorem takesSide_eq (e : Encoded) (i : Nat) :
    (Site.effect .vectorPredicate i).takesSide e =
      (VectorCondition.ofCode? (e.immediate i).toNat).isSome := by
  show (e.immediate i == 1 || e.immediate i == 2) = _
  unfold VectorCondition.ofCode?
  split
  · next hOne => simp [BitVec.toNat_eq, hOne]
  · next hTwo => simp [BitVec.toNat_eq, hTwo]
  · next hOne hTwo =>
    have hOther : (e.immediate i).toNat ≠ 1 ∧ (e.immediate i).toNat ≠ 2 := ⟨hOne, hTwo⟩
    simp [BitVec.toNat_eq, hOther]

/-- What an effect form makes of the effects. -/
theorem apply_follows {e : Encoded} {i : Nat} {form : EffectForm} {fx after : Effects}
    (h : fx.apply e i form = .ok after) : Follows e [.effect form i] fx after := by
  cases form with
  | flagSetter =>
      by_cases hZero : e.registerId i = 0
      · have hWrites : Site.writesAfter e fx.writes.items (.effect .flagSetter i) =
            fx.writes.items.erase .cpsr := if_pos hZero
        cases (if_pos hZero).symm.trans h
        exact ⟨rfl, hWrites.symm, rfl, rfl, rfl, rfl, rfl⟩
      · have hWrites : Site.writesAfter e fx.writes.items (.effect .flagSetter i) =
            mention fx.writes.items .cpsr := if_neg hZero
        obtain ⟨writes, hItems, rfl⟩ := addWrite_eq_ok ((if_neg hZero).symm.trans h)
        exact ⟨rfl, hItems.trans hWrites.symm, rfl, rfl, rfl, rfl, rfl⟩
  | predicate =>
      have hReads : Site.readsAfter e fx.reads.items (.effect .predicate i) =
          mentionIf fx.reads.items ((Site.effect .predicate i).predicates e) .cpsr := rfl
      rw [predicates_eq] at hReads
      by_cases hAlways : Condition.ofCode (e.immediate i).byte = .al
      · cases (if_pos hAlways).symm.trans h
        rw [decide_eq_true hAlways] at hReads
        exact ⟨hReads.symm, rfl, rfl, rfl, rfl, rfl, rfl⟩
      · obtain ⟨reads, hItems, rfl⟩ := addRead_eq_ok ((if_neg hAlways).symm.trans h)
        rw [decide_eq_false hAlways] at hReads
        exact ⟨hItems.trans hReads.symm, rfl, rfl, rfl, rfl, rfl, rfl⟩
  | vectorPredicate =>
      have hReads : Site.readsAfter e fx.reads.items (.effect .vectorPredicate i) =
          mentionIf fx.reads.items ((Site.effect .vectorPredicate i).takesSide e) .vpr := rfl
      rw [takesSide_eq] at hReads
      cases hSide : (VectorCondition.ofCode? (e.immediate i).toNat).isSome with
      | true =>
          obtain ⟨reads, hItems, rfl⟩ := addRead_eq_ok ((if_pos hSide).symm.trans h)
          rw [hSide] at hReads
          exact ⟨hItems.trans hReads.symm, rfl, rfl, rfl, rfl, rfl, rfl⟩
      | false =>
          have hNone : ¬ (VectorCondition.ofCode? (e.immediate i).toNat).isSome = true := by
            simp [hSide]
          cases (if_neg hNone).symm.trans h
          rw [hSide] at hReads
          exact ⟨hReads.symm, rfl, rfl, rfl, rfl, rfl, rfl⟩
  | mandatoryPredicate | restrictedPredicate | interruptMode | interruptMask | memoryBarrier
  | instructionBarrier | traceBarrier | blockMask | vectorBlockMask =>
      cases h
      exact ⟨rfl, rfl, rfl, rfl, rfl, rfl, rfl⟩

/-- What settling makes of the effects. -/
structure Settled (t : Template) (operands : List Operand) (fx after : Effects) : Prop where
  flags : after.updatesFlags =
    (operands.any Operand.writesFlags || writesAny fx.writes.items flagRegisters)
  groups : after.groups.items = mentionIf fx.groups.items t.jumps .jump
  others : { after with updatesFlags := fx.updatesFlags, groups := fx.groups } = fx

theorem settle_settled {t : Template} {operands : List Operand} {fx after : Effects}
    (h : fx.settle t operands = .ok after) : Settled t operands fx after := by
  cases hJumps : t.jumps with
  | true =>
      have hJump : t.jumps = true := hJumps
      obtain ⟨groups, hItems, rfl⟩ := addGroup_eq_ok ((if_pos hJump).symm.trans h)
      exact ⟨rfl, by rw [hJumps]; exact hItems, rfl⟩
  | false =>
      have hNot : ¬ t.jumps = true := by simp [hJumps]
      cases (if_neg hNot).symm.trans h
      exact ⟨rfl, by rw [hJumps]; rfl, rfl⟩

end Effects

/-! ## Runs -/

namespace Report

/-- What a visit makes of the effects. -/
theorem visit_follows {e : Encoded} {site : Site} {report after : Report}
    (h : (report.visit e site).result = .ok after) :
    Effects.Follows e [site] report.effects after.effects := by
  cases site with
  | effect form i =>
      obtain ⟨effects, hApply, rfl⟩ := map_eq_ok_iff.mp h
      exact Effects.apply_follows hApply
  | operand form i =>
      rw [visit_operand h]
      exact ⟨rfl, rfl, rfl, rfl, rfl, rfl, rfl⟩

/-- What a run over sites makes of the effects. -/
theorem visitAll_follows {e : Encoded} {sites : List Site} {report after : Report}
    (h : (report.visitAll e sites).result = .ok after) :
    Effects.Follows e sites report.effects after.effects := by
  induction sites generalizing report with
  | nil =>
      cases h
      exact .refl e _
  | cons site rest ih =>
      obtain ⟨next, hNext, hRest⟩ := Outcome.result_bind_eq_ok_iff.mp h
      exact (visit_follows hNext).cons (ih hRest)

/-- The three parts of filling a report. -/
theorem fill_eq_ok {e : Encoded} {report : Report} (h : (fill e).result = .ok report) :
    ∃ effects visited, Effects.ofTemplate e.opcode = .ok effects ∧
      (visitAll e { effects } e.opcode.sites).result = .ok visited ∧
      visited.effects.settle e.opcode visited.operands.toList = .ok report.effects ∧
      report.operands = visited.operands := by
  obtain ⟨fresh, hFresh, hRest⟩ := Outcome.result_bind_eq_ok_iff.mp h
  obtain ⟨visited, hVisited, hFinish⟩ := Outcome.result_bind_eq_ok_iff.mp hRest
  obtain ⟨effects, hEffects, rfl⟩ := map_eq_ok_iff.mp hFresh
  have hClosed := (finish_operands hFinish).2
  rw [Outcome.result_ofResult, finish, hClosed] at hFinish
  obtain ⟨settled, hSettle, rfl⟩ := map_eq_ok_iff.mp hFinish
  exact ⟨effects, visited, hEffects, hVisited, hSettle, rfl⟩

end Report

/-! ## Closed forms -/

/-- A field that is no immediate is vacant just when it names no register. -/
theorem isVacant_iff {e : Encoded} {i : Nat} (h : e.isImmediate i = false) :
    (e.field i).isVacant = true ↔ e.registerId i = 0 := by
  unfold Encoded.isImmediate at h
  unfold Encoded.registerId
  cases hField : e.field i with
  | immediate v => simp [hField] at h
  | register id => simp [Field.isVacant]
  | vacant => simp [Field.isVacant]

namespace Site

/-- The two sites do not settle the same part of the implicit registers. -/
def Apart (site other : Site) : Prop :=
  (site.settlesReads && other.settlesReads) = false ∧
    (site.settlesWrites && other.settlesWrites) = false

instance (site other : Site) : Decidable (Apart site other) :=
  inferInstanceAs (Decidable (_ ∧ _))

variable {e : Encoded}

private theorem foldl_readsAfter_of_none {sites : List Site} (xs : List Register)
    (hNone : ∀ site ∈ sites, site.settlesReads = false) :
    sites.any (predicates e) = false ∧ sites.any (takesSide e) = false ∧
      sites.foldl (readsAfter e) xs = xs := by
  induction sites with
  | nil => exact ⟨rfl, rfl, rfl⟩
  | cons site rest ih =>
      obtain ⟨hFirst, hOthers⟩ := List.forall_mem_cons.mp hNone
      obtain ⟨hPredicates, hSide, hReads⟩ := readsAfter_of_not_settlesReads (e := e) xs hFirst
      obtain ⟨hRestPredicates, hRestSide, hRest⟩ := ih hOthers
      refine ⟨?_, ?_, ?_⟩
      · rw [List.any_cons, hPredicates, hRestPredicates]
        rfl
      · rw [List.any_cons, hSide, hRestSide]
        rfl
      · rw [List.foldl_cons, hReads, hRest]

/-- Where at most one site settles what is read, the run adds what some site calls
for. -/
theorem foldl_readsAfter {sites : List Site} (hApart : sites.Pairwise Apart)
    (xs : List Register) :
    sites.foldl (readsAfter e) xs =
      mentionIf (mentionIf xs (sites.any (predicates e)) .cpsr) (sites.any (takesSide e)) .vpr := by
  induction sites with
  | nil => rfl
  | cons site rest ih =>
      obtain ⟨hFirst, hOthers⟩ := List.pairwise_cons.mp hApart
      cases hSettles : site.settlesReads with
      | false =>
          obtain ⟨hPredicates, hSide, hReads⟩ :=
            readsAfter_of_not_settlesReads (e := e) xs hSettles
          rw [List.foldl_cons, hReads, ih hOthers, List.any_cons, List.any_cons, hPredicates, hSide]
          rfl
      | true =>
          have hNone : ∀ later ∈ rest, later.settlesReads = false := by
            intro later hLater
            simpa [hSettles] using (hFirst later hLater).1
          obtain ⟨hPredicates, hSide, hReads⟩ :=
            foldl_readsAfter_of_none (e := e) (readsAfter e xs site) hNone
          rw [List.foldl_cons, hReads, List.any_cons, List.any_cons, hPredicates, hSide,
            Bool.or_false, Bool.or_false]
          rfl

theorem foldl_writesAfter_of_none {sites : List Site} (xs : List Register)
    (hNone : ∀ site ∈ sites, site.settlesWrites = false) :
    sites.foldl (writesAfter e) xs = xs := by
  induction sites with
  | nil => rfl
  | cons site rest ih =>
      obtain ⟨hFirst, hOthers⟩ := List.forall_mem_cons.mp hNone
      rw [List.foldl_cons, writesAfter_of_not_settlesWrites xs hFirst, ih hOthers]

/-- Where at most one site settles what is written, the run does what that site does. -/
theorem foldl_writesAfter_of_mem {sites : List Site} (hApart : sites.Pairwise Apart)
    {site : Site} (hMem : site ∈ sites) (hSettles : site.settlesWrites = true)
    (xs : List Register) : sites.foldl (writesAfter e) xs = writesAfter e xs site := by
  induction sites with
  | nil => contradiction
  | cons first rest ih =>
      obtain ⟨hFirst, hOthers⟩ := List.pairwise_cons.mp hApart
      rcases List.mem_cons.mp hMem with rfl | hMem
      · have hNone : ∀ later ∈ rest, later.settlesWrites = false := by
          intro later hLater
          simpa [hSettles] using (hFirst later hLater).2
        rw [List.foldl_cons, foldl_writesAfter_of_none _ hNone]
      · have hOther : first.settlesWrites = false := by
          simpa [hSettles] using (hFirst site hMem).2
        rw [List.foldl_cons, writesAfter_of_not_settlesWrites xs hOther, ih hOthers hMem]

/-- Without a flag site the registers written stay as they are. -/
theorem foldl_writesAfter_of_no_flagSetter {sites : List Site}
    (hNone : ∀ i, .effect .flagSetter i ∉ sites) (xs : List Register) :
    sites.foldl (writesAfter e) xs = xs := by
  refine foldl_writesAfter_of_none xs fun site hSite => ?_
  cases site with
  | operand form i => rfl
  | effect form i => cases form <;> first | rfl | exact absurd hSite (hNone i)

/-- A flag site takes the status register out if its field is vacant, and else adds it. -/
theorem foldl_writesAfter_of_flagSetter {sites : List Site} (hApart : sites.Pairwise Apart)
    {i : Nat} (hMem : .effect .flagSetter i ∈ sites) (hField : e.isImmediate i = false)
    {xs : List Register} (hDistinct : xs.Nodup) :
    sites.foldl (writesAfter e) xs =
      if (e.field i).isVacant then xs.filter (· ≠ .cpsr) else mention xs .cpsr := by
  rw [foldl_writesAfter_of_mem hApart hMem rfl]
  show (if e.registerId i = 0 then xs.erase .cpsr else mention xs .cpsr) = _
  simp only [isVacant_iff hField]
  split
  · rw [hDistinct.erase_eq_filter]
    refine List.filter_congr fun r _ => ?_
    rw [Bool.eq_iff_iff, bne_iff_ne, decide_eq_true_eq]
  · rfl

theorem isSome_foldl_conditionAfter (sites : List Site) (c : Option Condition) :
    (sites.foldl (conditionAfter e) c).isSome =
      (c.isSome || sites.any settlesCondition) := by
  induction sites generalizing c with
  | nil => exact (Bool.or_false _).symm
  | cons site rest ih =>
      rw [List.foldl_cons, ih, isSome_conditionAfter, List.any_cons, Bool.or_assoc]

end Site

/-! ## Filled reports -/

/-- What the table promises of the implicit registers and groups of a template. -/
structure Template.Tidy (t : Template) : Prop where
  reads : t.reads.Nodup ∧ default ∉ t.reads
  writes : t.writes.Nodup ∧ default ∉ t.writes
  groups : t.groups.Nodup ∧ default ∉ t.groups ∧ Group.jump ∉ t.groups
  apart : t.sites.Pairwise Site.Apart
  flagSlots : ∀ site ∈ t.sites, site.settlesWrites = true →
    (t.slots.describe site.slot).kind = .register

instance (t : Template) : Decidable t.Tidy :=
  decidable_of_iff
    ((t.reads.Nodup ∧ default ∉ t.reads) ∧ (t.writes.Nodup ∧ default ∉ t.writes) ∧
      (t.groups.Nodup ∧ default ∉ t.groups ∧ Group.jump ∉ t.groups) ∧
      t.sites.Pairwise Site.Apart ∧
      ∀ site ∈ t.sites, site.settlesWrites = true →
        (t.slots.describe site.slot).kind = .register)
    ⟨fun ⟨hReads, hWrites, hGroups, hApart, hFlagSlots⟩ =>
        ⟨hReads, hWrites, hGroups, hApart, hFlagSlots⟩,
      fun h => ⟨h.reads, h.writes, h.groups, h.apart, h.flagSlots⟩⟩

/-- Every template of the table is tidy. -/
theorem tidy_of_mem_templates {t : Template} (ht : t ∈ templates) : t.Tidy := by
  have hAll : ∀ t ∈ templates, t.Tidy := by decide +kernel
  exact hAll t ht

/-- In a screened instruction no flag field is an immediate. -/
theorem flagFields_of_build {e : Encoded} {detail : Bool} {insn : Instruction}
    (hTable : e.opcode ∈ templates) (hBuild : Instruction.build e detail = .ok insn) :
    ∀ i, .effect .flagSetter i ∈ e.opcode.sites → e.isImmediate i = false := by
  intro i hSite
  exact isImmediate_of_build hBuild ((tidy_of_mem_templates hTable).flagSlots _ hSite rfl)

namespace Effects

/-- The implicit effects are those of the template, as the fields of the instruction
amend them. -/
structure ImplicitOf (e : Encoded) (fx : Effects) : Prop where
  reads : fx.reads.items =
    mentionIf (mentionIf e.opcode.reads (e.opcode.sites.any (Site.predicates e)) .cpsr)
      (e.opcode.sites.any (Site.takesSide e)) .vpr
  /-- no site sets the flags -/
  writesPlain : (∀ i, .effect .flagSetter i ∉ e.opcode.sites) →
    fx.writes.items = e.opcode.writes
  /-- the flags could be set, and are not -/
  writesUnset : ∀ i, .effect .flagSetter i ∈ e.opcode.sites → (e.field i).isVacant = true →
    fx.writes.items = e.opcode.writes.filter (· ≠ .cpsr)
  /-- the flags are set -/
  writesSet : ∀ i, .effect .flagSetter i ∈ e.opcode.sites → (e.field i).isVacant = false →
    fx.writes.items = mention e.opcode.writes .cpsr
  groups : fx.groups.items =
    if e.opcode.branch || e.opcode.indirect then e.opcode.groups ++ [.jump] else e.opcode.groups
  writeback : fx.writeback = e.opcode.writeback
  postIndexed : fx.postIndexed = e.opcode.postIndexed
  userMode : fx.userMode = e.opcode.userMode
  condition : fx.condition.isSome = e.opcode.sites.any Site.settlesCondition

/-- The effects of a tidy template are what it lists. -/
theorem ofTemplate_items {t : Template} {fx : Effects} (hTidy : t.Tidy)
    (h : ofTemplate t = .ok fx) :
    fx.reads.items = t.reads ∧ fx.writes.items = t.writes ∧ fx.groups.items = t.groups ∧
      fx.writeback = t.writeback ∧ fx.postIndexed = t.postIndexed ∧ fx.userMode = t.userMode ∧
      fx.condition = none := by
  obtain ⟨reads, hReads, h⟩ := bind_eq_ok_iff.mp h
  obtain ⟨writes, hWrites, h⟩ := bind_eq_ok_iff.mp h
  obtain ⟨groups, hGroups, h⟩ := bind_eq_ok_iff.mp h
  cases h
  exact ⟨OrderedSet.items_of_ofList hTidy.reads.1 hTidy.reads.2 hReads,
    OrderedSet.items_of_ofList hTidy.writes.1 hTidy.writes.2 hWrites,
    OrderedSet.items_of_ofList hTidy.groups.1 hTidy.groups.2.1 hGroups, rfl, rfl, rfl, rfl⟩

end Effects

private theorem jump_items {t : Template} {xs : List Group} (hTidy : t.Tidy)
    (h : xs = t.groups) : mentionIf xs t.jumps .jump =
      if t.branch || t.indirect then t.groups ++ [.jump] else t.groups := by
  subst h
  show (if t.branch || t.indirect then mention t.groups .jump else t.groups) = _
  rw [mention, if_neg hTidy.groups.2.2]

/-- The implicit effects of a filled report, where no flag slot holds an immediate. -/
theorem Report.fill_implicit {e : Encoded} {report : Report} (hTidy : e.opcode.Tidy)
    (hFields : ∀ i, .effect .flagSetter i ∈ e.opcode.sites → e.isImmediate i = false)
    (h : (fill e).result = .ok report) : report.effects.ImplicitOf e := by
  obtain ⟨effects, visited, hEffects, hVisited, hSettle, _⟩ := fill_eq_ok h
  obtain ⟨hReads, hWrites, hGroups, hWriteback, hPostIndexed, hUserMode, hCondition⟩ :=
    Effects.ofTemplate_items hTidy hEffects
  have hRun := visitAll_follows hVisited
  have hSettled := Effects.settle_settled hSettle
  have hSame := hSettled.others
  -- Of the two parts that settling changes only the groups are asked for here.
  have hReadsRun : report.effects.reads.items =
      e.opcode.sites.foldl (Site.readsAfter e) e.opcode.reads := by
    rw [← hReads, ← hRun.reads, ← hSame]
  have hWritesRun : report.effects.writes.items =
      e.opcode.sites.foldl (Site.writesAfter e) e.opcode.writes := by
    rw [← hWrites, ← hRun.writes, ← hSame]
  have hConditionRun : report.effects.condition =
      e.opcode.sites.foldl (Site.conditionAfter e) none := by
    rw [← hCondition, ← hRun.condition, ← hSame]
  have hFlags : ∀ i, .effect .flagSetter i ∈ e.opcode.sites →
      report.effects.writes.items =
        if (e.field i).isVacant then e.opcode.writes.filter (· ≠ .cpsr)
        else mention e.opcode.writes .cpsr := by
    intro i hSite
    rw [hWritesRun, Site.foldl_writesAfter_of_flagSetter hTidy.apart hSite (hFields i hSite)
      hTidy.writes.1]
  refine
    { reads := hReadsRun.trans (Site.foldl_readsAfter hTidy.apart _)
      writesPlain := ?_
      writesUnset := ?_
      writesSet := ?_
      groups := ?_
      writeback := ?_
      postIndexed := ?_
      userMode := ?_
      condition := ?_ }
  · intro hNone
    rw [hWritesRun, Site.foldl_writesAfter_of_no_flagSetter hNone]
  · intro i hSite hVacant
    rw [hFlags i hSite, if_pos hVacant]
  · intro i hSite hHeld
    rw [hFlags i hSite, hHeld]
    rfl
  · rw [hSettled.groups, hRun.groups]
    exact jump_items hTidy hGroups
  · rw [← hWriteback, ← hRun.writeback, ← hSame]
  · rw [← hPostIndexed, ← hRun.postIndexed, ← hSame]
  · rw [← hUserMode, ← hRun.userMode, ← hSame]
  · rw [hConditionRun, Site.isSome_foldl_conditionAfter]
    rfl

/-- A site changes a part of the implicit effects only if it settles that part. -/
structure Site.Spares (site : Site) (fx after : Effects) : Prop where
  reads : site.settlesReads = false → after.reads = fx.reads
  writes : site.settlesWrites = false → after.writes = fx.writes
  condition : site.settlesCondition = false → after.condition = fx.condition
  groups : after.groups = fx.groups
  writeback : after.writeback = fx.writeback
  postIndexed : after.postIndexed = fx.postIndexed
  userMode : after.userMode = fx.userMode

theorem Effects.Follows.spares {e : Encoded} {site : Site} {fx after : Effects}
    (h : Follows e [site] fx after) : site.Spares fx after where
  reads := fun hNot =>
    congrArg OrderedSet.mk (h.reads.trans (Site.readsAfter_of_not_settlesReads _ hNot).2.2)
  writes := fun hNot =>
    congrArg OrderedSet.mk (h.writes.trans (Site.writesAfter_of_not_settlesWrites _ hNot))
  condition := fun hNot =>
    h.condition.trans (Site.conditionAfter_of_not_settlesCondition _ hNot)
  groups := h.groups
  writeback := h.writeback
  postIndexed := h.postIndexed
  userMode := h.userMode

/-- The implicit effects of an accepted instruction are those of its template, as its
fields amend them, once it is filled.  A site changes a part of them only if it settles
that part. -/
theorem take_fill_implicit {e : Encoded} {insn filled : Instruction}
    (hTable : e.opcode ∈ templates) (hBuild : Instruction.build e true = .ok insn)
    (h : (insn.take .fill).result = .ok filled) :
    ∃ report : Report, filled = { e with report := some report } ∧
      report.effects.ImplicitOf e ∧
      ∀ (site : Site) (before after : Report), (before.visit e site).result = .ok after →
        site.Spares before.effects after.effects := by
  have hTidy := tidy_of_mem_templates hTable
  have hFields := flagFields_of_build hTable hBuild
  obtain ⟨_, rfl⟩ := takes_of_build hBuild
  obtain ⟨report, hFill, rfl⟩ := map_eq_ok_iff.mp h
  refine ⟨report, rfl, Report.fill_implicit hTidy hFields hFill, ?_⟩
  intro site before after hVisit
  exact (Report.visit_follows hVisit).spares

/-- A conditional addition that sets the flags. -/
def addAndSetFlags : Encoded where
  opcode := (templates.find? (·.name == "ADDrr")).get (by decide +kernel)
  fields := [.register 32, .register 33, .register 34, .immediate 0, .register 3, .register 3]

/-- A conditional addition that sets the flags reads the status register, which decides
whether it takes effect, and writes it. -/
theorem take_fill_addAndSetFlags :
    addAndSetFlags.opcode ∈ templates ∧
      Instruction.build addAndSetFlags true =
        .ok { addAndSetFlags with report := some (default : Report) } ∧
      ∃ report : Report,
        (Instruction.take { addAndSetFlags with report := some (default : Report) } .fill).result =
          .ok { addAndSetFlags with report := some report } ∧
        report.effects.reads.items = [.cpsr] ∧ report.effects.writes.items = [.cpsr] ∧
        report.effects.condition.isSome = true := by
  have hTable : addAndSetFlags.opcode ∈ templates := by
    dsimp only [addAndSetFlags]
    exact List.get_find?_mem _
  have hBuild : Instruction.build addAndSetFlags true =
      .ok { addAndSetFlags with report := some (default : Report) } := rfl
  obtain ⟨report, hReport, hImplicit, _⟩ := take_fill_implicit hTable hBuild
    (show (Instruction.take { addAndSetFlags with report := some (default : Report) }
      .fill).result = .ok _ from rfl)
  refine ⟨hTable, hBuild, report, congrArg Except.ok hReport, ?_, ?_, ?_⟩
  · exact hImplicit.reads.trans (by decide)
  · exact (hImplicit.writesSet 5 (by decide) rfl).trans (by decide)
  · exact hImplicit.condition.trans (by decide)

end OperandReport.Arm
