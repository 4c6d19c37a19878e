import OperandReport.Proofs.Power.Contribution
import OperandReport.Session

/-!
# What screening accepts, and what it blames

A field suits a slot by the kind of the slot alone, and whether a list of fields is
accepted is a matter of its length and of each field in its slot.  Screening reads the
list from the front, so what it blames is the first field that does not suit.  This is
said here without the loop: `Screens` says of any check which lists it accepts and which
rejection it gives to each of the others.

A session refuses an instruction just when the table has no such opcode or screening
rejects the fields.  Neither looks at the mode, at the address, or at whether a report is
wanted.

## Main results

* `firstMisfit?_eq_some_iff`: the field that is blamed is the first misfit.
* `screen_screens`: screening against any slot table.
* `decode_rejects_iff`: what a session rejects.
* `screens_templates`: all of this over both tables of opcodes, and that the registers of
  accepted fields are there to be found.
-/

namespace OperandReport

/-! ## One field -/

namespace Field

/-- The field suits a slot of a kind: it is vacant, or it is a known register in a slot of
registers, or an immediate in a slot of immediates or where a memory base is expected. -/
def Suits (known : Nat → Bool) : Field → SlotKind → Prop
  | .vacant, _ => True
  | .register id, kind => known id = true ∧ (kind = .register ∨ kind = .memoryRegister)
  | .immediate _, kind => kind = .immediate ∨ kind = .memoryImmediate ∨ kind = .memoryRegister

instance (known : Nat → Bool) (field : Field) (kind : SlotKind) :
    Decidable (field.Suits known kind) :=
  match field with
  | .vacant => isTrue trivial
  | .register id =>
    inferInstanceAs (Decidable (known id = true ∧ (kind = .register ∨ kind = .memoryRegister)))
  | .immediate _ =>
    inferInstanceAs
      (Decidable (kind = .immediate ∨ kind = .memoryImmediate ∨ kind = .memoryRegister))

/-- What a field is blamed for where it does not suit: a register in a slot of registers
for its number, every other field for its kind. -/
def blame : Field → SlotKind → Rejection.Kind
  | .register _, .register | .register _, .memoryRegister => .unknownRegister
  | _, _ => .misfit

end Field

/-- A field is blamed just when it does not suit. -/
theorem misfit?_eq_some_iff {known : Nat → Bool} {field : Field} {kind : SlotKind}
    {blamed : Rejection.Kind} :
    misfit? known field kind = some blamed ↔
      ¬ field.Suits known kind ∧ blamed = field.blame kind := by
  rw [eq_comm (a := blamed)]
  cases field with
  | vacant => simp [misfit?_vacant, Field.Suits]
  | register id => cases kind <;> simp [misfit?, Field.Suits, Field.blame]
  | immediate v => cases kind <;> simp [misfit?, Field.Suits, Field.blame]

theorem misfit?_eq_none_iff {known : Nat → Bool} {field : Field} {kind : SlotKind} :
    misfit? known field kind = none ↔ field.Suits known kind := by
  cases field with
  | vacant => simp [misfit?_vacant, Field.Suits]
  | register id => exact misfit?_register_eq_none_iff
  | immediate v => cases kind <;> simp [misfit?, Field.Suits]

/-! ## The first misfit -/

/-- The kind of slot `i`; slots past the end have the kind of the last entry. -/
def SlotTable.kindAt (slots : SlotTable) (i : Nat) : SlotKind := (slots.describe i).kind

/-- Field `i` does not suit its slot, and all fields before it suit theirs. -/
structure FirstMisfit (known : Nat → Bool) (kindAt : Nat → SlotKind) (fields : List Field)
    (i : Nat) (field : Field) : Prop where
  here : fields[i]? = some field
  misfit : ¬ field.Suits known (kindAt i)
  before : ∀ (j : Nat) (earlier : Field), j < i → fields[j]? = some earlier →
    earlier.Suits known (kindAt j)

/-- Every field suits its slot. -/
def AllSuit (known : Nat → Bool) (kindAt : Nat → SlotKind) (fields : List Field) : Prop :=
  ∀ (i : Nat) (field : Field), fields[i]? = some field → field.Suits known (kindAt i)

section FirstMisfit

variable {known : Nat → Bool} {kindAt : Nat → SlotKind} {field first : Field}
  {rest fields : List Field} {i : Nat}

theorem firstMisfit_zero (h : ¬ first.Suits known (kindAt 0)) :
    FirstMisfit known kindAt (first :: rest) i field ↔ i = 0 ∧ field = first := by
  constructor
  · rintro ⟨hHere, hMisfit, hBefore⟩
    cases i with
    | zero => exact ⟨rfl, by simpa using hHere.symm⟩
    | succ i => exact absurd (hBefore 0 first (Nat.succ_pos i) rfl) h
  · rintro ⟨rfl, rfl⟩
    exact ⟨rfl, h, fun j _ hj => absurd hj (Nat.not_lt_zero j)⟩

theorem firstMisfit_succ (h : first.Suits known (kindAt 0)) :
    FirstMisfit known kindAt (first :: rest) i field ↔
      ∃ k, i = k + 1 ∧ FirstMisfit known (fun j => kindAt (j + 1)) rest k field := by
  constructor
  · rintro ⟨hHere, hMisfit, hBefore⟩
    cases i with
    | zero =>
        obtain rfl : first = field := by simpa using hHere
        exact absurd h hMisfit
    | succ k =>
        refine ⟨k, rfl, by simpa using hHere, hMisfit, fun j earlier hj hEarlier => ?_⟩
        exact hBefore (j + 1) earlier (Nat.succ_lt_succ hj) (by simpa using hEarlier)
  · rintro ⟨k, rfl, hHere, hMisfit, hBefore⟩
    refine ⟨by simpa using hHere, hMisfit, fun j earlier hj hEarlier => ?_⟩
    cases j with
    | zero =>
        obtain rfl : first = earlier := by simpa using hEarlier
        exact h
    | succ j => exact hBefore j earlier (Nat.lt_of_succ_lt_succ hj) (by simpa using hEarlier)

theorem FirstMisfit.lt_length (h : FirstMisfit known kindAt fields i field) :
    i < fields.length :=
  (List.getElem?_eq_some_iff.mp h.here).1

end FirstMisfit

/-- The search blames the first misfit, whichever slot it starts at. -/
theorem firstMisfit?_eq_some_iff {known : Nat → Bool} {slots : SlotTable} {start : Nat}
    {fields : List Field} {r : Rejection} :
    firstMisfit? known slots start fields = some r ↔
      ∃ i field, FirstMisfit known (fun j => slots.kindAt (start + j)) fields i field ∧
        r = .blaming (field.blame (slots.kindAt (start + i))) (start + i) := by
  induction fields generalizing start with
  | nil =>
      refine ⟨fun h => absurd h (by simp [firstMisfit?]), ?_⟩
      rintro ⟨i, field, hFirst, _⟩
      exact absurd hFirst.lt_length (Nat.not_lt_zero i)
  | cons first rest ih =>
      rw [firstMisfit?]
      split
      · next blamed hBlamed =>
        obtain ⟨hMisfit, rfl⟩ := misfit?_eq_some_iff.mp hBlamed
        constructor
        · rintro ⟨⟩
          exact ⟨0, first, (firstMisfit_zero hMisfit).mpr ⟨rfl, rfl⟩, rfl⟩
        · rintro ⟨i, field, hFirst, rfl⟩
          obtain ⟨rfl, rfl⟩ := (firstMisfit_zero hMisfit).mp hFirst
          rfl
      · next hNone =>
        have hSuits : first.Suits known (slots.kindAt start) := misfit?_eq_none_iff.mp hNone
        -- What is found behind the first field is found one slot further on.
        have hShift : ∀ j, start + 1 + j = start + (j + 1) := fun j => by omega
        simp only [ih, hShift]
        constructor
        · rintro ⟨k, field, hFirst, rfl⟩
          exact ⟨k + 1, field, (firstMisfit_succ hSuits).mpr ⟨k, rfl, hFirst⟩, rfl⟩
        · rintro ⟨i, field, hFirst, rfl⟩
          obtain ⟨k, rfl, hRest⟩ := (firstMisfit_succ hSuits).mp hFirst
          exact ⟨k, field, hRest, rfl⟩

/-! ## Whole lists -/

/-- A check accepts the lists of a suitable length in which every field suits its slot.
It rejects the others for their length, or else blames the first misfit. -/
structure Screens (known : Nat → Bool) (takes : Nat → Prop) (slots : SlotTable)
    (check : List Field → Except Rejection Unit) : Prop where
  accepts : ∀ fields,
    check fields = .ok () ↔ takes fields.length ∧ AllSuit known slots.kindAt fields
  rejects : ∀ fields r,
    check fields = .error r ↔
      (¬ takes fields.length ∧ r = ⟨.fieldCount, none⟩) ∨
        takes fields.length ∧ ∃ i field, FirstMisfit known slots.kindAt fields i field ∧
          r = ⟨field.blame (slots.kindAt i), some i⟩

/-- Nothing is blamed where every field suits its slot. -/
theorem firstMisfit?_eq_none_iff_allSuit {known : Nat → Bool} {slots : SlotTable}
    {fields : List Field} :
    firstMisfit? known slots 0 fields = none ↔ AllSuit known slots.kindAt fields := by
  simp only [firstMisfit?_eq_none_iff, misfit?_eq_none_iff, Nat.zero_add]
  constructor
  · intro h i field hHere
    obtain ⟨hIn, rfl⟩ := List.getElem?_eq_some_iff.mp hHere
    exact h i hIn
  · intro h i hIn
    exact h i _ (List.getElem?_eq_getElem hIn)

/-- Screening is a check of the length, and then a search. -/
theorem screen_eq_ok_iff {known takes : Nat → Bool} {slots : SlotTable} {fields : List Field} :
    screen known takes slots fields = .ok () ↔
      takes fields.length = true ∧ firstMisfit? known slots 0 fields = none := by
  unfold screen
  cases takes fields.length <;> cases firstMisfit? known slots 0 fields <;> simp

theorem screen_eq_error_iff {known takes : Nat → Bool} {slots : SlotTable}
    {fields : List Field} {r : Rejection} :
    screen known takes slots fields = .error r ↔
      (¬ takes fields.length = true ∧ r = ⟨.fieldCount, none⟩) ∨
        takes fields.length = true ∧ firstMisfit? known slots 0 fields = some r := by
  unfold screen
  cases takes fields.length <;> cases firstMisfit? known slots 0 fields <;> simp [eq_comm]

/-- Screening accepts and blames as it should, if no list that it takes is so long that its
indices would not fit a byte. -/
theorem screen_screens {known takes : Nat → Bool} {slots : SlotTable}
    (hShort : ∀ n, takes n = true → n ≤ 256) :
    Screens known (takes · = true) slots (screen known takes slots) where
  accepts fields := by rw [screen_eq_ok_iff, firstMisfit?_eq_none_iff_allSuit]
  rejects fields r := by
    rw [screen_eq_error_iff, firstMisfit?_eq_some_iff]
    refine or_congr_right (and_congr_right fun hTakes => ?_)
    -- The index is kept as a byte, which an index of a list that short fits.
    have hByte : ∀ {i field}, FirstMisfit known slots.kindAt fields i field → i % 256 = i :=
      fun h => Nat.mod_eq_of_lt (Nat.lt_of_lt_of_le h.lt_length (hShort _ hTakes))
    refine exists_congr fun i => exists_congr fun field => ?_
    simp only [Nat.zero_add, Rejection.blaming]
    exact and_congr_right fun hFirst => by rw [hByte hFirst]

/-- In screened fields every register number is known, if zero is. -/
theorem Encoded.known_registerId_of_screen {τ : Type} {e : Encoded τ} {known takes : Nat → Bool}
    {slots : SlotTable} (h : screen known takes slots e.fields = .ok ()) (hZero : known 0 = true)
    (i : Nat) : known (e.registerId i) = true := by
  have hSuits := misfit?_of_screen h i
  unfold registerId
  split
  · next id hField =>
    rw [show e.fields.getD i .vacant = .register id from hField,
      misfit?_register_eq_none_iff] at hSuits
    exact hSuits.1
  · exact hZero

/-! ## The tables -/

namespace Arm

/-- The numbers that name an ARM register, or none. -/
def isKnown (id : Nat) : Bool := (Register.ofId? id).isSome

/-- The number of fields of an instruction: one for each slot, and up to fifteen more where
the last slot repeats. -/
def Template.Counts (t : Template) (n : Nat) : Prop :=
  if t.variadic then t.slots.length ≤ n ∧ n ≤ t.slots.length + 15 else n = t.slots.length

/-- No register list is cut short by the room for operands. -/
theorem takes_iff_counts {t : Template} (ht : t ∈ templates) (n : Nat) :
    t.takes n = true ↔ t.Counts n := by
  have hRoom : ∀ t ∈ templates, t.variadic = true → t.slots.length + 15 ≤ operandCapacity := by
    decide +kernel
  unfold Template.takes Template.Counts
  split
  · next hVariadic =>
    have hFits := hRoom t ht hVariadic
    have hList : listCapacity = 16 := rfl
    simp only [Bool.and_eq_true, decide_eq_true_eq]
    omega
  · simp

/-- Screening of ARM fields. -/
theorem template_screens {t : Template} (ht : t ∈ templates) :
    Screens isKnown t.Counts t.slots t.screen := by
  have hShort : ∀ n, t.takes n = true → n ≤ 256 := fun n hn => by
    have hSlots : ∀ t ∈ templates, t.slots.length + 15 ≤ 256 := by decide +kernel
    have hFits := hSlots t ht
    have hCount := (takes_iff_counts ht n).mp hn
    unfold Template.Counts at hCount
    split at hCount <;> omega
  have hCounts : (t.takes · = true) = t.Counts :=
    funext fun n => propext (takes_iff_counts ht n)
  rw [← hCounts]
  exact screen_screens hShort

/-- In a screened instruction every register number is known, so the register at a field is
the one that is found under its number. -/
theorem ofId?_of_build {e : Encoded} {detail : Bool} {insn : Instruction}
    (h : Instruction.build e detail = .ok insn) (i : Nat) :
    Register.ofId? (e.registerId i) = some (registerAt e i) := by
  obtain ⟨_, hScreen, _⟩ := map_eq_ok_iff.mp h
  have hKnown : (Register.ofId? (e.registerId i)).isSome = true :=
    Encoded.known_registerId_of_screen hScreen rfl i
  obtain ⟨r, hr⟩ := Option.isSome_iff_exists.mp hKnown
  rw [registerAt, hr, Option.getD_some]

end Arm

namespace Power

/-- The numbers that name a PowerPC register, or none. -/
def isKnown (id : Nat) : Bool := (Register.ofId? id).isSome

/-- Screening of PowerPC fields. -/
theorem template_screens {t : Template} (ht : t ∈ templates) :
    Screens isKnown (· = t.slots.length) t.slots t.screen := by
  have hShort : ∀ n, (n == t.slots.length) = true → n ≤ 256 := fun n hn => by
    have hSlots : ∀ t ∈ templates, t.slots.length ≤ 256 := by decide +kernel
    rw [beq_iff_eq] at hn
    exact hn ▸ hSlots t ht
  have hCounts : (fun n => (n == t.slots.length) = true) = (· = t.slots.length) :=
    funext fun n => propext beq_iff_eq
  rw [← hCounts]
  exact screen_screens hShort

/-- In a screened instruction every register number is known, so the register at a field is
the one that is found under its number. -/
theorem ofId?_of_build {e : Encoded} {detail : Bool} {insn : Instruction}
    (h : Instruction.build e detail = .ok insn) (i : Nat) :
    Register.ofId? (e.registerId i) = some (registerAt e i) := by
  obtain ⟨_, hScreen, _⟩ := map_eq_ok_iff.mp h
  have hKnown : (Register.ofId? (e.registerId i)).isSome = true :=
    Encoded.known_registerId_of_screen hScreen rfl i
  obtain ⟨r, hr⟩ := Option.isSome_iff_exists.mp hKnown
  rw [registerAt, hr, Option.getD_some]

end Power

/-! ## Sessions -/

/-- What the architecture makes of an opcode number and fields: an unknown opcode is
rejected, and under a known one the fields are screened. -/
def Architecture.screen (a : Architecture) (number : Nat) (fields : List Field) :
    Except Rejection Unit :=
  match a with
  | .arm => (Arm.Template.ofNumber? number).elim (.error Session.unknownOpcode) (·.screen fields)
  | .power =>
    (Power.Template.ofNumber? number).elim (.error Session.unknownOpcode) (·.screen fields)

/-- A rejection ends the decoding; filling a report rejects nothing. -/
private theorem not_rejected {α : Type} {filled : Outcome α} {wrap : α → Decoded}
    {r : Rejection} : (filled.map fun insn => Except.ok (wrap insn)).result ≠ .ok (.error r) := by
  intro h
  obtain ⟨insn, _, hInsn⟩ := map_eq_ok_iff.mp h
  contradiction

/-- A session rejects what its architecture screens out, with the same rejection: nothing
else is looked at, and nothing else is rejected. -/
theorem decode_rejects_iff {s : Session} {number : Nat} {fields : List Field}
    {address : BitVec 64} {r : Rejection} :
    (s.decode number fields address).result = .ok (.error r) ↔
      s.architecture.screen number fields = .error r := by
  unfold Session.decode Architecture.screen
  cases hArchitecture : s.architecture with
  | arm =>
      dsimp only
      cases Arm.Template.ofNumber? number with
      | none => simp
      | some t =>
          simp only [Session.decodeArm, if_pos hArchitecture, Option.elim_some]
          split
          · next rejection hBuild =>
            rw [map_eq_error_iff.mp hBuild]
            simp
          · next insn hBuild =>
            obtain ⟨_, hScreen, _⟩ := map_eq_ok_iff.mp hBuild
            simp [hScreen, not_rejected]
  | power =>
      dsimp only
      cases Power.Template.ofNumber? number with
      | none => simp
      | some t =>
          simp only [Session.decodePower, if_pos hArchitecture, Option.elim_some]
          split
          · next rejection hBuild =>
            rw [map_eq_error_iff.mp hBuild]
            simp
          · next insn hBuild =>
            obtain ⟨_, hScreen, _⟩ := map_eq_ok_iff.mp hBuild
            simp [hScreen, not_rejected]

/-- Screening is exact: over each table of opcodes it accepts and blames as it should, a
session rejects what is screened out and nothing else, and the register at any field of an
accepted instruction is the one that its number names. -/
theorem screens_templates :
    (∀ t ∈ Arm.templates, Screens Arm.isKnown t.Counts t.slots t.screen) ∧
      (∀ t ∈ Power.templates, Screens Power.isKnown (· = t.slots.length) t.slots t.screen) ∧
      (∀ (s : Session) (number : Nat) (fields : List Field) (address : BitVec 64)
        (r : Rejection), (s.decode number fields address).result = .ok (.error r) ↔
          s.architecture.screen number fields = .error r) ∧
      (∀ (e : Arm.Encoded) (detail : Bool) (insn : Arm.Instruction),
        Arm.Instruction.build e detail = .ok insn →
          ∀ i, Arm.Register.ofId? (e.registerId i) = some (Arm.registerAt e i)) ∧
      ∀ (e : Power.Encoded) (detail : Bool) (insn : Power.Instruction),
        Power.Instruction.build e detail = .ok insn →
          ∀ i, Power.Register.ofId? (e.registerId i) = some (Power.registerAt e i) :=
  ⟨fun _ ht => Arm.template_screens ht, fun _ ht => Power.template_screens ht,
    fun _ _ _ _ _ => decode_rejects_iff, fun _ _ _ hBuild => Arm.ofId?_of_build hBuild,
    fun _ _ _ hBuild => Power.ofId?_of_build hBuild⟩

/-- A list of registers to be popped. -/
def popList : Arm.Template := (Arm.templates.find? (·.name == "tPOP")).get (by decide +kernel)

/-- Two registers to be popped, the second of which does not exist.  Its field lies past the
last slot. -/
def popUnknown : List Field := [.immediate 14, .register 0, .register 32, .register 400]

/-- The second register of the list is to blame, in every session on ARM code. -/
theorem decode_popUnknown :
    popList.slots.length = 3 ∧ popList.screen popUnknown = .error ⟨.unknownRegister, some 3⟩ ∧
      ∀ (s : Session) (address : BitVec 64), s.architecture = .arm →
        (s.decode 106 popUnknown address).result = .ok (.error ⟨.unknownRegister, some 3⟩) := by
  obtain ⟨hArm, _, hSessions, _⟩ := screens_templates
  have hTable : popList ∈ Arm.templates := by
    dsimp only [popList]
    exact List.get_find?_mem _
  have hSuits : ∀ j : Fin 3,
      (popUnknown[j.val]?.getD .vacant).Suits Arm.isKnown (popList.slots.kindAt j) := by
    decide +kernel
  have hFirst : FirstMisfit Arm.isKnown popList.slots.kindAt popUnknown 3 (.register 400) := by
    refine ⟨rfl, by decide +kernel, fun j earlier hj hEarlier => ?_⟩
    simpa [hEarlier] using hSuits ⟨j, hj⟩
  have hCounts : popList.Counts popUnknown.length := by
    show 3 ≤ 4 ∧ 4 ≤ 18
    decide
  have hScreen : popList.screen popUnknown = .error ⟨.unknownRegister, some 3⟩ :=
    ((hArm popList hTable).rejects popUnknown _).mpr
      (.inr ⟨hCounts, 3, .register 400, hFirst, by decide +kernel⟩)
  refine ⟨rfl, hScreen, fun s address hArchitecture => (hSessions s 106 _ address _).mpr ?_⟩
  have hNumber : Arm.Template.ofNumber? 106 = some popList := by decide +kernel
  simp only [hArchitecture, Architecture.screen, hNumber, Option.elim_some]
  exact hScreen

end OperandReport
