import OperandReport.Fault

/-!
# Containers

The containers of this library have room for a fixed number of members and keep them in a row
of cells.  A cell is reached by its index, and an index past the last cell is refused.

A request to a container is carried out in steps.  Where a step is refused the request ends
there, and what the earlier steps have changed stays changed; the container goes on from
there with the next request.  So it takes a proof that a refused request changes nothing.
-/

namespace OperandReport

/-- Why a request to a container is refused. -/
inductive Refusal where
  /-- the request breaks a rule -/
  | fault (f : Fault)
  /-- there is nothing at this index -/
  | pastEnd (index count : Nat)
  deriving DecidableEq, Repr

/-- Steps that change a container and give an answer, up to the first one that is refused. -/
abbrev Steps (σ α : Type) := EStateM Refusal σ α

/-- Carries out the steps of a request: the answer, and the container that is left. -/
def Steps.carryOut {σ α : Type} (steps : Steps σ α) (s : σ) : Except Refusal α × σ :=
  match steps.run s with
  | .ok answer t => (.ok answer, t)
  | .error refusal t => (.error refusal, t)

namespace Steps

variable {σ α β : Type} (s : σ)

/-- Replaces the container, unless that is refused. -/
def replace (next : σ → Except Refusal σ) : Steps σ Unit := do
  match next (← get) with
  | .ok t => set t
  | .error refusal => throw refusal

@[simp] theorem carryOut_pure (a : α) : carryOut (pure a) s = (.ok a, s) := rfl

@[simp] theorem carryOut_throw (refusal : Refusal) :
    carryOut (throw refusal : Steps σ α) s = (.error refusal, s) := rfl

@[simp] theorem carryOut_get : carryOut get s = (.ok s, s) := rfl

@[simp] theorem carryOut_set (t : σ) : carryOut (set t) s = (.ok ⟨⟩, t) := rfl

@[simp] theorem carryOut_modify (f : σ → σ) : carryOut (modify f) s = (.ok ⟨⟩, f s) := rfl

/-- A refused step ends the request and leaves what there is by then. -/
@[simp] theorem carryOut_bind (steps : Steps σ α) (next : α → Steps σ β) :
    carryOut (steps >>= next) s =
      match carryOut steps s with
      | (.ok a, t) => carryOut (next a) t
      | (.error refusal, t) => (.error refusal, t) := by
  simp only [carryOut, EStateM.run_bind]
  cases steps.run s <;> rfl

@[simp] theorem carryOut_map (f : α → β) (steps : Steps σ α) :
    carryOut (f <$> steps) s =
      match carryOut steps s with
      | (.ok a, t) => (.ok (f a), t)
      | (.error refusal, t) => (.error refusal, t) := by
  simp only [carryOut, EStateM.run, Functor.map, EStateM.map]
  cases steps s <;> rfl

@[simp] theorem carryOut_replace (next : σ → Except Refusal σ) :
    carryOut (replace next) s =
      match next s with
      | .ok t => (.ok (), t)
      | .error refusal => (.error refusal, s) := by
  simp only [replace, carryOut_bind, carryOut_get]
  split
  · rw [carryOut_set]
  · rw [carryOut_throw]

end Steps

/-- The container after some requests, first to last. -/
def after {σ ι ω : Type} (handle : σ → ι → ω × σ) (s : σ) (requests : List ι) : σ :=
  requests.foldl (fun s request => (handle s request).2) s

/-- A row of cells. -/
abbrev Cells (α : Type) (n : Nat) := Vector α n

namespace Cells

variable {α : Type} {n : Nat}

/-- Changes the content of the cell at an index. -/
def change (cells : Cells α n) (i : Nat) (f : α → α) : Except Refusal (Cells α n) :=
  if h : i < n then .ok (cells.set i (f cells[i])) else .error (.pastEnd i n)

/-- Copies the cells from `start` up to `stop`, all at once, to the cells from `target` on. -/
def move (cells : Cells α n) (start stop target : Nat) : Except Refusal (Cells α n) :=
  if h : start ≤ stop ∧ stop ≤ n then
    if target + (stop - start) ≤ n then
      .ok (.ofFn fun i =>
        if hi : target ≤ i.val ∧ i.val < target + (stop - start)
        then cells[start + (i.val - target)] else cells[i])
    else .error (.pastEnd (target + (stop - start)) n)
  else .error (.pastEnd stop n)

theorem change_eq_ok {cells : Cells α n} {i : Nat} (h : i < n) (f : α → α) :
    cells.change i f = .ok (cells.set i (f cells[i])) := dif_pos h

/-- A move copies what the cells held before it. -/
theorem move_eq_ok (cells : Cells α n) {start stop target : Nat} (hRange : start ≤ stop)
    (hStop : stop ≤ n) (hTarget : target + (stop - start) ≤ n) :
    ∃ moved, cells.move start stop target = .ok moved ∧ ∀ i : Nat, moved[i]? =
      if target ≤ i ∧ i < target + (stop - start) then cells[start + (i - target)]?
      else cells[i]? := by
  refine ⟨_, by rw [move, dif_pos ⟨hRange, hStop⟩, if_pos hTarget], fun i => ?_⟩
  rw [Vector.getElem?_ofFn]
  split
  · next hi =>
    split
    · next hMoved => rw [Vector.getElem?_eq_getElem]
    · next hStays => exact (Vector.getElem?_eq_getElem hi).symm
  · next hPast =>
    rw [if_neg (by omega), Vector.getElem?_eq_none (by omega)]

end Cells

end OperandReport
