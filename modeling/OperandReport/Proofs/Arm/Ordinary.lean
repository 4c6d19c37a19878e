import OperandReport.Proofs.Arm.Visit

/-!
# What ordinary forms complete

Most operand forms are ordinary.  What they complete is a number or some other constant, a
memory operand, or a register that some field names, and none of it is shifted.

The others are of two sorts.  Some complete the register at their first field whatever that
field holds, so that it may be the absence of a register; they are `showsAbsent`.  Some
write a shift, a few of them next to such a register.  This module settles the ordinary
forms once, and says of the other ones which register they show.

## Main results

* `OperandForm.complete_ordinary`: ordinary forms complete ordinary operands.
* `OperandForm.complete_named`, `OperandForm.completedBy_absent`: what the forms complete
  that may show the absence of a register, with a register and without one.
-/

namespace OperandReport.Arm

/-- The operand is not shifted, and it is not the absence of a register. -/
structure Operand.Ordinary (op : Operand) : Prop where
  shift : op.shift = {}
  value : op.value ≠ .register .none

theorem Operand.Ordinary.memory {op : Operand} {m : Memory} (hShift : op.shift = {})
    (hValue : op.value = .memory m) : op.Ordinary where
  shift := hShift
  value := by simp [hValue]

/-- Every register number of the instruction is known. -/
def AllKnown (e : Encoded) : Prop := ∀ i, Register.ofId? (e.registerId i) = some (registerAt e i)

/-- Of an instruction whose register numbers are known, a field gives no register just if it
is vacant or holds register zero. -/
theorem AllKnown.registerAt_eq_none_iff {e : Encoded} (hKnown : AllKnown e) {i : Nat} :
    registerAt e i = .none ↔ e.registerId i = 0 := by
  obtain ⟨hAt, _⟩ := Register.ofId?_eq_some_iff.mp (hKnown i)
  rw [hAt]
  exact ⟨fun h => congrArg Register.id h, fun h => congrArg Register.mk h⟩

namespace OperandForm

/-- The form completes the register at its first field, or parts of it, even if there is
none. -/
def showsAbsent : OperandForm → Bool
  | registerShifted | constantShifted | wideConstantShifted | corePair | vectorList ..
  | quadList _ | postRegister => true
  | _ => false

/-- The form may shift the operand that it completes. -/
def mayShift : OperandForm → Bool
  | registerShifted | constantShifted | wideConstantShifted | mode2 | mode2Offset | shiftedIndex
  | tableByte | tableHalf | vectorOffsets _ => true
  | _ => false

end OperandForm

/-! ## Registers next to registers -/

namespace Register

theorem core_ne_none (n : Nat) : core n ≠ none := by
  unfold core
  split
  · simp [none]
  · split
    · decide
    · split
      · decide
      · decide

theorem single_ne_none (n : Nat) : single n ≠ none := by simp [single, none]

theorem double_ne_none (n : Nat) : double n ≠ none := by simp [double, none]

theorem quad_ne_none (n : Nat) : quad n ≠ none := by simp [quad, none]

private theorem ne_none_of_guarded {p : Prop} [Decidable p] {r s : Register} (hr : r ≠ none)
    (h : (if p then some r else Option.none) = some s) : s ≠ none := by
  split at h
  · cases h
    exact hr
  · contradiction

/-- A part of a register is a register. -/
theorem ne_none_of_part? {r s : Register} {part : Part} (h : r.part? part = some s) :
    s ≠ none := by
  obtain ⟨family, _, h⟩ := Option.bind_eq_some_iff.mp h
  obtain ⟨n, _, h⟩ := Option.bind_eq_some_iff.mp h
  cases family <;> cases part <;>
    first
    | contradiction
    | exact ne_none_of_guarded (core_ne_none _) h
    | exact ne_none_of_guarded (single_ne_none _) h
    | exact ne_none_of_guarded (double_ne_none _) h
    | exact ne_none_of_guarded (quad_ne_none _) h

/-- A register some steps further along is a register. -/
theorem ne_none_of_offset? {r s : Register} {delta : Nat} (h : r.offset? delta = some s) :
    s ≠ none := by
  obtain ⟨n, _, h⟩ := Option.bind_eq_some_iff.mp h
  obtain ⟨family, _, h⟩ := Option.bind_eq_some_iff.mp h
  cases family with
  | core | special => exact ne_none_of_guarded (core_ne_none _) h
  | single => exact ne_none_of_guarded (single_ne_none _) h
  | double => exact ne_none_of_guarded (double_ne_none _) h
  | quad => exact ne_none_of_guarded (quad_ne_none _) h
  | _ => contradiction

/-- A run of registers holds no absence of one. -/
theorem ne_none_of_mem_run {first r : Register} {steps : List Nat} {registers : List Register}
    (h : steps.mapM first.offset? = some registers) (hr : r ∈ registers) : r ≠ none := by
  induction steps generalizing registers with
  | nil =>
      cases h
      contradiction
  | cons step rest ih =>
      rw [List.mapM_cons] at h
      obtain ⟨s, hStep, hTail⟩ := Option.bind_eq_some_iff.mp h
      obtain ⟨others, hOthers, hEq⟩ := Option.bind_eq_some_iff.mp hTail
      cases hEq
      rcases List.mem_cons.mp hr with rfl | hr
      · exact ne_none_of_offset? hStep
      · exact ih hOthers hr

theorem partOrSelf_ne_none {r : Register} (part : Part) (h : r ≠ none) :
    r.partOrSelf part ≠ none := by
  unfold partOrSelf
  cases hPart : r.part? part with
  | none => exact h
  | some s => exact ne_none_of_part? hPart

end Register

/-! ## Ordinary pieces -/

section Pieces

open Edit (Complete)

variable {e : Encoded} {i : Nat}

theorem complete_reportRegister (hKnown : AllKnown e) (hSome : e.registerId i ≠ 0) :
    Complete Operand.Ordinary [reportRegister e i] := by
  refine Complete.report ⟨rfl, fun h => ?_⟩
  exact hSome (hKnown.registerAt_eq_none_iff.mp (Value.register.inj h))

theorem complete_plainEdits (hKnown : AllKnown e) :
    Complete Operand.Ordinary (plainEdits e i) := by
  unfold plainEdits
  split
  · exact .nil
  · next id hField =>
    split
    · exact .nil
    · next hSome =>
      have hId : e.registerId i = id := by simp [Encoded.registerId, hField]
      refine .place ⟨rfl, fun h => ?_⟩ _
      exact hSome (hId.symm.trans (hKnown.registerAt_eq_none_iff.mp (Value.register.inj h)))
  · exact .place ⟨rfl, nofun⟩ _

/-- A form on a base register completes what it does where there is one, or else ordinary
operands. -/
theorem complete_onBase {p : Operand → Prop} (hKnown : AllKnown e)
    (hOrdinary : ∀ op, op.Ordinary → p op) {edits : Register → List (Edit Operand)}
    (h : ∀ base, Complete p (edits base)) : Complete p (onBase e i edits) := by
  unfold onBase
  split
  · exact h _
  · exact (complete_plainEdits hKnown).mono hOrdinary

theorem complete_mode3OffsetEdits (hKnown : AllKnown e) :
    Complete Operand.Ordinary (mode3OffsetEdits e i) := by
  unfold mode3OffsetEdits
  dsimp only
  split
  · exact .report ⟨rfl, nofun⟩
  · next hSome =>
    refine .report ⟨rfl, fun h => ?_⟩
    exact hSome (hKnown.registerAt_eq_none_iff.mp (Value.register.inj h))

/-- An operand of addressing mode 5, or of a signed offset, is a base register and a number. -/
theorem complete_mode5Edits (hKnown : AllKnown e) (unit : Nat) (showZero : Bool) :
    Complete Operand.Ordinary (mode5Edits e i unit showZero) := by
  rw [mode5Edits_eq]
  exact complete_onBase hKnown (fun _ h => h) fun base => .bracket (.memory rfl rfl)

theorem complete_signedOffsetEdits (hKnown : AllKnown e) (showZero : Bool) :
    Complete Operand.Ordinary (signedOffsetEdits e i showZero) := by
  rw [signedOffsetEdits_eq]
  exact complete_onBase hKnown (fun _ h => h) fun base => .bracket (.memory rfl rfl)

theorem complete_mode3Edits (hKnown : AllKnown e) (showZero : Bool) :
    Complete Operand.Ordinary (mode3Edits e i showZero) := by
  rw [mode3Edits_eq]
  refine complete_onBase hKnown (fun _ h => h) fun base => ?_
  dsimp only
  split
  · exact .cons (.bracket (.memory rfl rfl)) (complete_mode3OffsetEdits hKnown)
  · split
    · exact .bracket (.memory rfl rfl)
    · exact .bracket (.memory rfl rfl)

theorem complete_registerListEdits : Complete Operand.Ordinary (registerListEdits e i) := by
  refine Complete.filterMap fun k edit hEdit => ?_
  dsimp only at hEdit
  split at hEdit
  · next hSome =>
    cases hEdit
    refine .report ⟨rfl, fun h => ?_⟩
    rw [show registerAt e k = .none from Value.register.inj h] at hSome
    contradiction
  · contradiction

end Pieces

/-! ## Forms -/

namespace OperandForm

open Edit (Complete)

variable {e : Encoded} {i : Nat} {form : OperandForm}

/-- An ordinary form completes ordinary operands. -/
theorem complete_ordinary (hKnown : AllKnown e) (hAbsent : form.showsAbsent = false)
    (hShift : form.mayShift = false) : Complete Operand.Ordinary (form.edits e i) := by
  cases hLooksBack : form.looksBack with
  | true =>
      intro op hOp
      rw [form.completedBy_of_looksBack e i hLooksBack] at hOp
      contradiction
  | false =>
      cases form with
      | plain => exact complete_plainEdits hKnown
      | registerList => exact complete_registerListEdits
      | mode3 => exact complete_mode3Edits hKnown _
      | mode3Offset => exact complete_mode3OffsetEdits hKnown
      | timesFour | shiftDistance | coprocessor | coprocessorRegister | floatImmediate
      | complexRotation | coprocessorOption | postOffset | postWordOffset | shortPostOffset
      | shortPostWordOffset | statusMask | plusOne | endianness | saturation | fractionBits =>
          exact .report ⟨rfl, nofun⟩
      | bitfield => exact .cons (.report ⟨rfl, nofun⟩) (.report ⟨rfl, nofun⟩)
      | baseOnly | literal | mode6 | exclusiveOffset => exact .bracket (.memory rfl rfl)
      | mode5 | mode5Half => exact complete_mode5Edits hKnown _ _
      | signedOffset | shortOffset | shortWordOffset => exact complete_signedOffsetEdits hKnown _
      | scaledOffset | stackOffset | indexed =>
          exact complete_onBase hKnown (fun _ h => h) fun base => .bracket (.memory rfl rfl)
      | rotatedImmediate =>
          show Complete _ (rotatedEdits e i)
          unfold rotatedEdits
          dsimp only
          split
          · exact .report ⟨rfl, nofun⟩
          · exact .cons (.report ⟨rfl, nofun⟩) (.report ⟨rfl, nofun⟩)
      | vectorImmediate =>
          show Complete _ (vectorImmediateEdits e i)
          unfold vectorImmediateEdits
          dsimp only
          split
          · exact .report ⟨rfl, nofun⟩
          · exact .cons (.note _) (.report ⟨rfl, nofun⟩)
      | bankedRegister =>
          show Complete _ (bankedEdits e i)
          unfold bankedEdits
          dsimp only
          split
          · exact .report ⟨rfl, nofun⟩
          · exact .cons (.note _) (.report ⟨rfl, nofun⟩)
      | mode6Offset =>
          show Complete _ (if e.registerId i = 0 then [] else [reportRegister e i])
          split
          · exact .nil
          · next hSome => exact complete_reportRegister hKnown hSome
      | label scale =>
          unfold edits
          dsimp only
          split
          · exact .report ⟨rfl, nofun⟩
          · exact .report ⟨rfl, nofun⟩
      | _ => contradiction

/-! ## Forms that show the register at their first field -/

/-- The operand is not the absence of a register. -/
abbrev Named (op : Operand) : Prop := op.value ≠ .register .none

/-- The parts of a register have what every register operand has that stands for one just if
the register does. -/
theorem complete_partEdits {p : Operand → Prop} {parts : List Part}
    (h : ∀ r, (registerAt e i ≠ .none → r ≠ .none) → p (.ofRegister r (accessAt e i))) :
    Complete p (partEdits e i parts) := by
  have hReport : ∀ r, (registerAt e i ≠ .none → r ≠ .none) →
      Complete p [.report (.ofRegister r (accessAt e i))] := fun r hr => .report (h r hr)
  unfold partEdits
  dsimp only
  split
  · refine .flatMap fun part _ => ?_
    split
    · exact hReport _ (Register.partOrSelf_ne_none part)
    · exact .cons (.note _) (hReport _ (Register.partOrSelf_ne_none part))
  · exact .cons (.note _) (hReport _ id)

theorem complete_runEdits {p : Operand → Prop} {steps : List Nat}
    (h : ∀ r, (registerAt e i ≠ .none → r ≠ .none) → p (.ofRegister r (accessAt e i))) :
    Complete p (runEdits e i steps) := by
  unfold runEdits
  dsimp only
  split
  · next registers hRun =>
    rw [List.map_eq_flatMap]
    exact .flatMap fun r hr => .report (h r fun _ => Register.ne_none_of_mem_run hRun hr)
  · exact .cons (.note _) (.report (h _ id))

/-- A list of vector registers, or parts of one, has what every such operand has. -/
theorem complete_vectorListEdits {p : Operand → Prop} {shape : VectorShape}
    (h : ∀ r, (registerAt e i ≠ .none → r ≠ .none) → p (.ofRegister r (accessAt e i))) :
    Complete p (vectorListEdits e i shape) := by
  cases shape with
  | one => exact .report (h _ id)
  | two | twoSpaced => exact complete_partEdits h
  | three | four | threeSpaced | fourSpaced => exact complete_runEdits h

/-- No other form completes the absence of a register. -/
theorem complete_named_of_not_showsAbsent (hKnown : AllKnown e)
    (hForm : form.showsAbsent = false) : Complete Named (form.edits e i) := by
  cases hShift : form.mayShift with
  | false => exact (complete_ordinary hKnown hForm hShift).mono fun _ h => h.value
  | true =>
      cases form with
      | mode2 =>
          show Complete Named (mode2Edits e i)
          rw [mode2Edits_eq]
          refine complete_onBase hKnown (fun _ h => h.value) fun base => ?_
          dsimp only
          split
          · exact .bracket nofun
          · exact .bracket nofun
      | mode2Offset =>
          unfold edits
          dsimp only
          split
          · exact .report nofun
          · next hSome =>
            refine .report fun h => ?_
            exact hSome (hKnown.registerAt_eq_none_iff.mp (Value.register.inj h))
      | shiftedIndex | tableByte | tableHalf | vectorOffsets => exact .bracket nofun
      | _ => contradiction

/-- With a register at the first field, such a form completes no absence of one. -/
theorem complete_named (hForm : form.showsAbsent = true) (h : registerAt e i ≠ .none) :
    Complete Named (form.edits e i) := by
  have hNamed : ∀ r, (registerAt e i ≠ .none → r ≠ .none) →
      Named (.ofRegister r (accessAt e i)) := fun r hr hEq => hr h (Value.register.inj hEq)
  cases form with
  | registerShifted | constantShifted | wideConstantShifted | postRegister =>
      exact .report fun hEq => h (Value.register.inj hEq)
  | corePair | quadList => exact complete_partEdits hNamed
  | vectorList => exact complete_vectorListEdits hNamed
  | _ => contradiction

/-- Without one, such a form completes just the absence of a register. -/
theorem completedBy_absent (hForm : form.showsAbsent = true) (h : registerAt e i = .none) :
    ∃ op : Operand, Edit.completedBy (form.edits e i) = [op] ∧ op.value = .register .none ∧
      op.access = accessAt e i := by
  have hParts : ∀ parts, Edit.completedBy (partEdits e i parts) =
      [.ofRegister .none (accessAt e i)] := fun parts => by
    rw [partEdits, reportRegister, h]
    rfl
  have hRun : ∀ step steps, Edit.completedBy (runEdits e i (step :: steps)) =
      [.ofRegister .none (accessAt e i)] := fun step steps => by
    rw [runEdits, h, List.mapM_cons]
    rfl
  cases form with
  | registerShifted | constantShifted | wideConstantShifted | postRegister =>
      exact ⟨_, rfl, congrArg Value.register h, rfl⟩
  | corePair => exact ⟨_, hParts _, rfl, rfl⟩
  | quadList => exact ⟨_, hParts _, rfl, rfl⟩
  | vectorList shape =>
      cases shape with
      | one => exact ⟨_, rfl, congrArg Value.register h, rfl⟩
      | two | twoSpaced => exact ⟨_, hParts _, rfl, rfl⟩
      | three | four | threeSpaced | fourSpaced => exact ⟨_, hRun _ _, rfl, rfl⟩
  | _ => contradiction

end OperandForm

end OperandReport.Arm
