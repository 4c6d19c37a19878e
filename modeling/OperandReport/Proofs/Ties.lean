import OperandReport.Arm.Assembly
import OperandReport.Arm.Opcode
import OperandReport.Power.Opcode

/-!
# Ties

A tie has two ends: a slot that has to equal another one, and the slot that it has to equal.
Both report that they are read and written, and every other slot reports the access of its
description.  A slot behind the end of a table shares the last description, but it is no end
of a tie.

The second end is looked up by the low byte of its number.  For numbers that are bytes this is
exact.  A greater number `Aliases` the target of a tie if the low byte of it is that target, and
then the slot is widened, whether it is in a tie or not.

## Main results

* `SlotTable.widens_iff`: which slots are widened.
* `wellTied_of_mem_templates`: the tables of both architectures are well tied.
* `SlotTable.access_of_wellTied`: what every slot of a well-tied table reports.
-/

namespace OperandReport

namespace SlotTable

variable {slots : SlotTable} {i : Nat}

/-- The slot is an end of a tie: it is in the table, and it has to equal another slot or
another one has to equal it. -/
def InTie (slots : SlotTable) (i : Nat) : Prop :=
  ∃ slot, slots[i]? = some slot ∧
    (slot.tiedTo.isSome = true ∨ ∃ other ∈ slots, other.tiedTo = some i)

/-- The number of the slot is greater than a byte, and its low byte is the number of a slot
that another one has to equal. -/
def Aliases (slots : SlotTable) (i : Nat) : Prop :=
  256 ≤ i ∧ ∃ other ∈ slots, other.tiedTo = some (i % 256)

/-- Every slot is read or written, and the targets of ties are slots whose numbers are
bytes. -/
structure WellTied (slots : SlotTable) : Prop where
  accessed : ∀ slot ∈ slots, slot.access ≠ .neither
  within : ∀ slot ∈ slots, ∀ k ∈ slot.tiedTo, k < slots.length
  byte : ∀ slot ∈ slots, ∀ k ∈ slot.tiedTo, k < 256

instance (slots : SlotTable) : Decidable slots.WellTied :=
  decidable_of_iff
    ((∀ slot ∈ slots, slot.access ≠ .neither) ∧
      (∀ slot ∈ slots, ∀ k ∈ slot.tiedTo, k < slots.length) ∧
      ∀ slot ∈ slots, ∀ k ∈ slot.tiedTo, k < 256)
    ⟨fun ⟨hAccessed, hWithin, hByte⟩ => ⟨hAccessed, hWithin, hByte⟩,
      fun h => ⟨h.accessed, h.within, h.byte⟩⟩

theorem isTied_iff :
    slots.isTied i = true ↔ ∃ slot, slots[i]? = some slot ∧ slot.tiedTo.isSome = true := by
  unfold isTied
  cases slots[i]? with
  | none => simp
  | some slot => simp

theorem isTieTarget_iff :
    slots.isTieTarget i = true ↔ ∃ other ∈ slots, other.tiedTo = some (i % 256) := by
  simp [isTieTarget]

/-- The ends of ties are widened, and so are the slots that alias the target of one. -/
theorem widens_iff (h : slots.WellTied) :
    slots.isTied i = true ∨ slots.isTieTarget i = true ↔ slots.InTie i ∨ slots.Aliases i := by
  rw [isTied_iff, isTieTarget_iff]
  constructor
  · rintro (⟨slot, hSlot, hTied⟩ | ⟨other, hOther, hTarget⟩)
    · exact .inl ⟨slot, hSlot, .inl hTied⟩
    · by_cases hByte : i < 256
      · rw [Nat.mod_eq_of_lt hByte] at hTarget
        have hWithin : i < slots.length := h.within other hOther i hTarget
        exact .inl ⟨slots[i], List.getElem?_eq_getElem hWithin, .inr ⟨other, hOther, hTarget⟩⟩
      · exact .inr ⟨Nat.le_of_not_lt hByte, other, hOther, hTarget⟩
  · rintro (⟨slot, hSlot, hTied | ⟨other, hOther, hTarget⟩⟩ | ⟨_, hAliased⟩)
    · exact .inl ⟨slot, hSlot, hTied⟩
    · have hByte : i < 256 := h.byte other hOther i hTarget
      rw [Nat.mod_eq_of_lt hByte]
      exact .inr ⟨other, hOther, hTarget⟩
    · exact .inr hAliased

/-- A table with an entry describes every slot by one of its entries. -/
theorem describe_mem (hEntry : slots ≠ []) (i : Nat) : slots.describe i ∈ slots := by
  unfold describe
  cases hSlot : slots[i]? with
  | some slot => exact List.mem_of_getElem? hSlot
  | none =>
      rw [Option.none_or, List.getLast?_eq_some_getLast hEntry]
      exact List.getLast_mem hEntry

/-- An end of a tie is read and written, and so is a slot that aliases the target of one. -/
theorem access_eq_both (h : slots.WellTied) (hWidens : slots.InTie i ∨ slots.Aliases i) :
    slots.access i = .both := by
  have hEntry : slots ≠ [] := by
    rintro rfl
    simp [InTie, Aliases] at hWidens
  rw [access_eq_widened ((widens_iff h).mpr hWidens)]
  exact Access.widened_eq_both (h.accessed _ (describe_mem hEntry i))

/-- Every other slot has the access of its description. -/
theorem access_eq_described (h : slots.WellTied) (hTie : ¬ slots.InTie i)
    (hAlias : ¬ slots.Aliases i) : slots.access i = (slots.describe i).access := by
  have hNot : ¬ (slots.isTied i = true ∨ slots.isTieTarget i = true) := by
    rw [widens_iff h]
    exact not_or.mpr ⟨hTie, hAlias⟩
  rw [not_or, Bool.not_eq_true, Bool.not_eq_true] at hNot
  exact access_eq_nominal hNot.1 hNot.2

/-- Both ends of a tie are in it. -/
theorem inTie_of_tiedTo (h : slots.WellTied) {k : Nat} {slot : Slot}
    (hSlot : slots[i]? = some slot) (hTied : slot.tiedTo = some k) :
    slots.InTie i ∧ slots.InTie k := by
  have hMem : slot ∈ slots := List.mem_of_getElem? hSlot
  have hWithin : k < slots.length := h.within slot hMem k hTied
  refine ⟨⟨slot, hSlot, .inl ?_⟩, slots[k], List.getElem?_eq_getElem hWithin,
    .inr ⟨slot, hMem, hTied⟩⟩
  rw [hTied]
  rfl

/-- In a well-tied table both ends of every tie are read and written.  A slot outside of all
ties has the access of its description if its number is a byte, whether it is in the table or
behind the end of it.  A slot with a greater number has another one just if it aliases the
target of a tie and the access of its description is not both already. -/
theorem access_of_wellTied (h : slots.WellTied) :
    (∀ i, slots.InTie i → slots.access i = .both) ∧
    (∀ (i k : Nat) (slot : Slot), slots[i]? = some slot → slot.tiedTo = some k →
      slots.InTie i ∧ slots.InTie k) ∧
    (∀ i, ¬ slots.InTie i → i < 256 → slots.access i = (slots.describe i).access) ∧
    ∀ i, ¬ slots.InTie i → (slots.access i = (slots.describe i).access ↔
      (slots.Aliases i → (slots.describe i).access = .both)) := by
  refine ⟨fun i hTie => access_eq_both h (.inl hTie), fun i k slot => inTie_of_tiedTo h,
    fun i hTie hByte => ?_, fun i hTie => ?_⟩
  · exact access_eq_described h hTie fun hAlias => absurd hAlias.1 (Nat.not_le.mpr hByte)
  · constructor
    · intro hSame hAlias
      rw [← hSame]
      exact access_eq_both h (.inr hAlias)
    · intro hBoth
      by_cases hAlias : slots.Aliases i
      · rw [access_eq_both h (.inr hAlias), hBoth hAlias]
      · exact access_eq_described h hTie hAlias

end SlotTable

/-- The tables of both architectures are well tied. -/
theorem wellTied_of_mem_templates :
    (∀ t ∈ Arm.templates, t.slots.WellTied) ∧ ∀ t ∈ Power.templates, t.slots.WellTied := by
  decide +kernel

/-- A load of a list of registers, which moves its base. -/
def Arm.loadList : Arm.Encoded where
  opcode := (Arm.templates.find? (·.name == "LDMIA_UPD")).get (by decide +kernel)
  fields := [.register 33, .register 33, .immediate 14, .register 0, .register 32]

theorem Arm.loadList_mem_templates : Arm.loadList.opcode ∈ Arm.templates := by
  dsimp only [Arm.loadList]
  exact List.get_find?_mem _

/-- Both slots of the base are read and written.  A register of the list is only written,
however long the list is. -/
theorem SlotTable.access_of_loadList :
    Arm.loadList.opcode.slots.WellTied ∧
      Arm.loadList.opcode.slots.access 0 = .both ∧ Arm.loadList.opcode.slots.access 1 = .both ∧
      ¬ Arm.loadList.opcode.slots.InTie 19 ∧ Arm.loadList.opcode.slots.access 19 = .writes := by
  have hTied : Arm.loadList.opcode.slots.WellTied :=
    wellTied_of_mem_templates.1 _ Arm.loadList_mem_templates
  obtain ⟨hBoth, hEnds, hOutside, _⟩ := SlotTable.access_of_wellTied hTied
  obtain ⟨hBase, hWrittenBack⟩ := hEnds 1 0 (.sameAs 0) rfl rfl
  have hBehind : ¬ Arm.loadList.opcode.slots.InTie 19 := by
    rintro ⟨slot, hSlot, _⟩
    contradiction
  exact ⟨hTied, hBoth 0 hWrittenBack, hBoth 1 hBase, hBehind,
    hOutside 19 hBehind (by decide)⟩

/-- Slot 256 lies behind the table, in no tie, and shares a description that is only written.
It is widened nevertheless, and a form at this field reports an operand that is read and
written. -/
theorem SlotTable.access_of_loadList_aliased :
    Arm.loadList.opcode.slots.WellTied ∧ Arm.loadList.opcode.slots.length ≤ 256 ∧
      ¬ Arm.loadList.opcode.slots.InTie 256 ∧
      (Arm.loadList.opcode.slots.describe 256).access = .writes ∧
      Arm.loadList.opcode.slots.access 256 = .both ∧
      ∃ after, ((default : Arm.Report).visit Arm.loadList
          (.operand (.vectorList .one false) 256)).result = .ok after ∧
        after.operands.toList = [.ofRegister .none .both] := by
  refine ⟨wellTied_of_mem_templates.1 _ Arm.loadList_mem_templates, by decide +kernel, ?_,
    rfl, rfl, _, rfl, rfl⟩
  rintro ⟨slot, hSlot, _⟩
  contradiction

end OperandReport
