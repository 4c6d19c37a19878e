import OperandReport.Fault
import OperandReport.Journal

/-!
# Outcomes

A run ends in a value or in a fault, and it takes notes on the way.  Notes taken
before a fault are kept.  Sequencing concatenates the notes and stops at the
first fault.
-/

namespace OperandReport

/-- A mapped result is a value when the result is one. -/
theorem map_eq_ok_iff {ε α β : Type} {f : α → β} {x : Except ε α} {b : β} :
    x.map f = .ok b ↔ ∃ a, x = .ok a ∧ f a = b := by
  cases x with
  | ok a => simp [Except.map]
  | error e => simp [Except.map]

/-- A sequenced result is a value when both parts give one. -/
theorem bind_eq_ok_iff {ε α β : Type} {x : Except ε α} {f : α → Except ε β} {b : β} :
    (x >>= f) = .ok b ↔ ∃ a, x = .ok a ∧ f a = .ok b := by
  cases x with
  | ok a => simp [bind, Except.bind]
  | error e => simp [bind, Except.bind]

/-- Mapping keeps an error as it is. -/
theorem map_eq_error_iff {ε α β : Type} {f : α → β} {x : Except ε α} {e : ε} :
    x.map f = .error e ↔ x = .error e := by
  cases x with
  | ok a => simp [Except.map]
  | error e' => simp [Except.map]

/-- The notes that a run took and the value or the fault that it ended in. -/
structure Outcome (α : Type) where
  notes : List String := []
  result : Except Fault α

namespace Outcome

variable {α β : Type}

/-- A run without notes. -/
def ofResult (result : Except Fault α) : Outcome α := ⟨[], result⟩

/-- Ends in a value at once. -/
def ok (a : α) : Outcome α := ⟨[], .ok a⟩

/-- Ends in a fault at once. -/
def fault (f : Fault) : Outcome α := ⟨[], .error f⟩

/-- Takes one note. -/
def note (text : String) : Outcome Unit := ⟨[text], .ok ()⟩

/-- Runs `f` on the value, unless there is a fault. -/
def bind (x : Outcome α) (f : α → Outcome β) : Outcome β :=
  match x.result with
  | .ok a => ⟨x.notes ++ (f a).notes, (f a).result⟩
  | .error e => ⟨x.notes, .error e⟩

instance : Monad Outcome where
  pure := ok
  bind := bind

/-- Applies a function to the value. -/
def map (f : α → β) (x : Outcome α) : Outcome β := ⟨x.notes, x.result.map f⟩

/-- The lines that the run writes to the journal: its notes, and a last line for
a fault that is journaled. -/
def lines (x : Outcome α) : List Line :=
  x.notes.map (⟨·, .trace⟩) ++
    match x.result with
    | .error f => if f.isJournaled then [⟨f.message, .error⟩] else []
    | .ok _ => []

/-- A value is handed on without a note. -/
@[simp] theorem ok_bind (a : α) (f : α → Outcome β) : (ok a).bind f = f a := rfl

@[simp] theorem bind_ok (x : Outcome α) : x.bind ok = x := by
  cases x with
  | mk notes result => cases result <;> simp [bind, ok]

/-- Notes are kept in order, whichever part of a sequence is run first. -/
theorem bind_assoc {γ : Type} (x : Outcome α) (f : α → Outcome β) (g : β → Outcome γ) :
    (x.bind f).bind g = x.bind fun a => (f a).bind g := by
  cases hx : x.result with
  | error e => simp [bind, hx]
  | ok a => cases hf : (f a).result <;> simp [bind, hx, hf]

theorem map_eq_bind (f : α → β) (x : Outcome α) : x.map f = x.bind fun a => ok (f a) := by
  cases hx : x.result <;> simp [map, bind, ok, hx, Except.map]

/-- A sequence depends on what follows the values that the first part gives. -/
theorem bind_congr {x : Outcome α} {f g : α → Outcome β}
    (h : ∀ a, x.result = .ok a → f a = g a) : x.bind f = x.bind g := by
  cases hx : x.result with
  | error e => simp [bind, hx]
  | ok a => simp [bind, hx, h a hx]

/-- What follows changes nothing if it hands on the values that it gets. -/
theorem bind_eq_self {x : Outcome α} {f : α → Outcome α}
    (h : ∀ a, x.result = .ok a → f a = ok a) : x.bind f = x := by
  rw [bind_congr h, bind_ok]

@[simp] theorem result_bind_ok {x : Outcome α} {f : α → Outcome β} {a : α}
    (h : x.result = .ok a) : (x.bind f).result = (f a).result := by
  simp [bind, h]

@[simp] theorem result_bind_error {x : Outcome α} {f : α → Outcome β} {e : Fault}
    (h : x.result = .error e) : (x.bind f).result = .error e := by
  simp [bind, h]

@[simp] theorem result_ok (a : α) : (ok a).result = .ok a := rfl

@[simp] theorem result_ofResult (r : Except Fault α) : (ofResult r).result = r := rfl

/-- A sequence gives a value when both of its parts do. -/
theorem result_bind_eq_ok_iff {x : Outcome α} {f : α → Outcome β} {b : β} :
    (x.bind f).result = .ok b ↔ ∃ a, x.result = .ok a ∧ (f a).result = .ok b := by
  cases hx : x.result with
  | ok a => simp [bind, hx]
  | error e => simp [bind, hx]

/-- A sequence ends in the fault of its first part, or of its second part. -/
theorem result_bind_eq_error_iff {x : Outcome α} {f : α → Outcome β} {e : Fault} :
    (x.bind f).result = .error e ↔
      x.result = .error e ∨ ∃ a, x.result = .ok a ∧ (f a).result = .error e := by
  cases hx : x.result with
  | ok a => simp [bind, hx]
  | error e' => simp [bind, hx]

end Outcome

end OperandReport
