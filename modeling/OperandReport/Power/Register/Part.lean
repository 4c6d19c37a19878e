import OperandReport.Power.Register

/-!
# Parts of PowerPC registers

A condition field has four bits; a vector-scalar register has a floating-point
register or a vector register as a part.  Each part belongs to one whole.

## Main results

* `whole?_of_part?`: the whole of a part is the register that it is a part of.
-/

namespace OperandReport.Power

/-- A part of a wider register. -/
inductive Part where
  | lt
  | gt
  | eq
  | un
  /-- the floating-point half of the lower vector-scalar registers -/
  | floating
  /-- the vector register behind an upper vector-scalar register -/
  | vector
  deriving DecidableEq, Repr

/-- All part selectors. -/
def Part.all : List Part := [.lt, .gt, .eq, .un, .floating, .vector]

namespace Register

/-- The condition bit at a place in a field. -/
def bitOf (n place : Nat) : Register := ⟨Family.conditionBit.first + (4 * n + place)⟩

/-- The part of a register that a selector names, if it has that part. -/
def part? (r : Register) (part : Part) : Option Register := do
  let family ← r.family?
  let n ← r.index?
  match family, part with
  | .conditionField, .lt => some (bitOf n 0)
  | .conditionField, .gt => some (bitOf n 1)
  | .conditionField, .eq => some (bitOf n 2)
  | .conditionField, .un => some (bitOf n 3)
  | .vectorScalar, .floating =>
    if n < 32 then some ⟨Family.floating.first + n⟩ else Option.none
  | .vectorScalar, .vector =>
    if 32 ≤ n then some ⟨Family.vector.first + (n - 32)⟩ else Option.none
  | _, _ => Option.none

/-- The register that another one is a part of. -/
def whole? (r : Register) : Option Register := do
  let family ← r.family?
  let n ← r.index?
  match family with
  | .conditionBit => some (conditionField (n / 4))
  | .floating => some ⟨Family.vectorScalar.first + n⟩
  | .vector => some ⟨Family.vectorScalar.first + (n + 32)⟩
  | _ => Option.none

/-- The register overlaps a vector-scalar one, or is one. -/
def overlapsVectorScalar (r : Register) : Bool :=
  match r.family? with
  | some .floating | some .vector | some .vectorScalar => true
  | _ => false

/-- The vector-scalar register over a register; any other register is kept. -/
def vectorScalar (r : Register) : Register :=
  match r.family? with
  | some .floating | some .vector => r.whole?.getD r
  | _ => r

/-- The note on a register that overlaps no vector-scalar one. -/
def overlapMissing (r : Register) : String :=
  s!"[ppc::regs] {r.name} doesn't overlap a vsx register"

/-- The numbers of the registers with parts lie below 209. -/
theorem id_lt_of_part? {r s : Register} {part : Part} (h : r.part? part = some s) :
    r.id < 209 := by
  cases hf : r.family? with
  | none => simp [part?, hf] at h
  | some family =>
    have hh := Family.holds_iff.mp (List.find?_some (p := (Family.holds · r)) hf)
    have hc : family.first + family.count ≤ 209 := by cases family <;> decide
    omega

/-- The whole of a part is the register that it is a part of. -/
theorem whole?_of_part? {r s : Register} {part : Part} (h : r.part? part = some s) :
    s.whole? = some r := by
  have key : ∀ (n : Fin 209) (p : Part), p ∈ Part.all →
      ∀ s, (⟨n.val⟩ : Register).part? p = some s → s.whole? = some ⟨n.val⟩ := by
    intro n p hp s hs
    have table : ∀ n : Fin 209, Part.all.all (fun p =>
        match (⟨n.val⟩ : Register).part? p with
        | some s => s.whole? == some ⟨n.val⟩
        | Option.none => true) = true := by decide +kernel
    have := List.all_eq_true.mp (table n) p hp
    simpa [hs] using this
  exact key ⟨r.id, id_lt_of_part? h⟩ part (by cases part <;> decide) s h

end Register

end OperandReport.Power
