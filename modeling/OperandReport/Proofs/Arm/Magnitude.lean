import OperandReport.Arm.Opcode
import OperandReport.Arm.Contribution

/-!
# Magnitudes

Most arithmetic on fields wraps around by design.  The rest is done without
wrapping: distances are negated, packed offsets are scaled, shift distances and
register steps are multiplied out, and the fields of a form are found by adding to
its slot.  `Site.quantities` lists these numbers together with the limit under which
each of them has to stay.

## Main results

* `quantities_lt_limit`: whatever the fields are, every number stays below its limit.
-/

namespace OperandReport.Arm

/-- A number that is computed without wrapping, and the limit below which it has to
stay. -/
structure Quantity where
  value : Nat
  limit : Nat

/-- The numbers that an operand form at field `i` computes without wrapping: 32-bit
products, 31-bit distances, shift distances in a double word, steps in a byte. -/
def OperandForm.quantities (e : Encoded) (i : Nat) : OperandForm → List Quantity
  | .rotatedImmediate => [⟨RotatedImmediate.rotation (e.immediate i).word, 0x100000000⟩]
  | .vectorImmediate =>
    let pattern := VectorImmediate.pattern (e.immediate i).word
    [⟨VectorImmediate.shift pattern, 64⟩, ⟨VectorImmediate.shiftOverOnes pattern, 64⟩]
  | .vectorList shape _ => shape.steps.map (⟨·, 256⟩)
  | .literal | .shortPostOffset | .shortPostWordOffset =>
    [⟨(splitOffset (e.immediate i).word).1.toNat, 0x80000000⟩]
  | .signedOffset _ | .shortOffset _ | .shortWordOffset _ =>
    [⟨(splitOffset (e.immediate (i + 1)).word).1.toNat, 0x80000000⟩]
  | .mode5 _ => [⟨(Mode5.ofWord (e.immediate (i + 1)).word).distance 4, 0x100000000⟩]
  | .mode5Half _ => [⟨(Mode5.ofWord (e.immediate (i + 1)).word).distance 2, 0x100000000⟩]
  | _ => []

/-- The numbers that a site computes without wrapping: the end of its window, and
those of its form. -/
def Site.quantities (e : Encoded) (site : Site) : List Quantity :=
  ⟨site.slot + site.width, 0x100000000⟩ ::
    match site with
    | effect .. => []
    | operand form i => form.quantities e i

/-- The distance of a signed offset has no sign bit. -/
theorem splitOffset_lt (v : Word) : (splitOffset v).1.toNat < 0x80000000 := by
  unfold splitOffset
  split
  · decide
  · next hLeast =>
    split
    · next hNegative =>
      have hNotLeast : v.toNat ≠ 0x80000000 := fun h => hLeast (BitVec.eq_of_toNat_eq h)
      have hHigh : 0x80000000 ≤ v.toNat := by
        simpa [BitVec.msb_eq_decide] using hNegative
      have hBound := v.isLt
      show (-v).toNat < 0x80000000
      rw [BitVec.toNat_neg]
      omega
    · next hPositive =>
      simpa [BitVec.msb_eq_decide] using hPositive

private theorem quantities_lt_of_form (e : Encoded) (i : Nat) (form : OperandForm) :
    ∀ q ∈ form.quantities e i, q.value < q.limit := by
  intro q hq
  cases form with
  | rotatedImmediate =>
      rw [List.mem_singleton.mp hq]
      simp only [RotatedImmediate.rotation]
      omega
  | vectorImmediate =>
      simp only [OperandForm.quantities, List.mem_cons, List.not_mem_nil, or_false] at hq
      rcases hq with rfl | rfl
      · simp only [VectorImmediate.shift]
        omega
      · simp only [VectorImmediate.shiftOverOnes]
        omega
  | vectorList shape allLanes =>
      obtain ⟨step, hStep, rfl⟩ := List.mem_map.mp hq
      have hSteps : ∀ step ∈ shape.steps, step < 256 := by
        cases shape <;> decide
      exact hSteps step hStep
  | literal | shortPostOffset | shortPostWordOffset =>
      rw [List.mem_singleton.mp hq]
      exact splitOffset_lt _
  | signedOffset | shortOffset | shortWordOffset =>
      rw [List.mem_singleton.mp hq]
      exact splitOffset_lt _
  | mode5 | mode5Half =>
      rw [List.mem_singleton.mp hq]
      simp only [Mode5.ofWord, Mode5.distance]
      omega
  | _ => contradiction

/-- Every number that a site of the table computes stays below its limit. -/
theorem quantities_lt_limit {e : Encoded} (hTable : e.opcode ∈ templates) :
    ∀ site ∈ e.opcode.sites, ∀ q ∈ site.quantities e, q.value < q.limit := by
  have hWindows : ∀ t ∈ templates, ∀ site ∈ t.sites, site.slot + site.width < 0x100000000 := by
    decide +kernel
  intro site hSite q hq
  rcases List.mem_cons.mp hq with rfl | hq
  · exact hWindows e.opcode hTable site hSite
  · cases site with
    | effect form i => exact absurd hq List.not_mem_nil
    | operand form i => exact quantities_lt_of_form e i form q hq

end OperandReport.Arm
