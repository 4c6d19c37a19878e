import OperandReport.Instruction

/-!
# Instructions that agree on some fields

A form reads a window of neighbouring fields.  Two instructions `AgreeOn` a window if
they have the same fields there; what lies outside may differ, and fields past the last
one count as vacant.  Whatever is read off a single field is then the same for both.

## Main results

* `Encoded.agreeOn_append`: fields behind the last one are outside of every window that
  stays within the fields.
-/

namespace OperandReport.Encoded

variable {τ : Type} {e e' : Encoded τ} {i k width : Nat}

/-- The two instructions have the same fields from `i` on, `width` of them. -/
def AgreeOn (e e' : Encoded τ) (i width : Nat) : Prop :=
  ∀ k, i ≤ k → k < i + width → e.field k = e'.field k

theorem AgreeOn.field (h : AgreeOn e e' i width) (hk : k < width) :
    e.field (i + k) = e'.field (i + k) :=
  h (i + k) (Nat.le_add_right i k) (Nat.add_lt_add_left hk i)

theorem agreeOn_of_fields (h : e.fields = e'.fields) (i width : Nat) : AgreeOn e e' i width := by
  intro k _ _
  rw [Encoded.field, h]
  rfl

/-- What stands behind the last field is not seen from a window within the fields. -/
theorem agreeOn_append (e : Encoded τ) (more : List Field) (h : i + width ≤ e.fields.length) :
    AgreeOn e { e with fields := e.fields ++ more } i width := by
  intro k _ hk
  have hIn : k < e.fields.length := Nat.lt_of_lt_of_le hk h
  simp [Encoded.field, List.getElem?_append_left hIn]

theorem isRegister_congr (h : e.field i = e'.field i) : e.isRegister i = e'.isRegister i := by
  rw [isRegister, h]
  rfl

theorem isImmediate_congr (h : e.field i = e'.field i) :
    e.isImmediate i = e'.isImmediate i := by
  rw [isImmediate, h]
  rfl

theorem registerId_congr (h : e.field i = e'.field i) : e.registerId i = e'.registerId i := by
  rw [registerId, h]
  rfl

theorem immediate_congr (h : e.field i = e'.field i) : e.immediate i = e'.immediate i := by
  rw [immediate, h]
  rfl

end OperandReport.Encoded
