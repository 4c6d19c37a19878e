import OperandReport.Container
import OperandReport.Outcome

/-!
# Runs

Steps are taken first to last, up to the first fault.  What every step preserves, a run
preserves, and the faults in which a run ends are those of its steps.

A container goes on after a request that it refuses.  What relates two containers, and is
preserved by handling the same request on both sides, relates them after any requests.

## Main results

* `runAll_ok`: an invariant over a run.
* `runAll_fault`: the faults that remain under it.
* `runAll_between`, `runAll_twice`: a run from one step to another, and one step twice.
* `after_related`: two containers after the same requests.
-/

namespace OperandReport

variable {σ ι : Type}

/-- Takes steps first to last, up to the first fault. -/
def runAll (step : σ → ι → Outcome σ) (s : σ) : List ι → Outcome σ
  | [] => .ok s
  | i :: rest => (step s i).bind (runAll step · rest)

variable {step : σ → ι → Outcome σ} {holds : σ → Prop} {s t : σ} {is : List ι}

/-- A run preserves what every step preserves. -/
theorem runAll_ok (hStep : ∀ s i t, holds s → (step s i).result = .ok t → holds t)
    (hStart : holds s) (h : (runAll step s is).result = .ok t) : holds t := by
  induction is generalizing s with
  | nil =>
      cases h
      exact hStart
  | cons i rest ih =>
      obtain ⟨next, hNext, hRest⟩ := Outcome.result_bind_eq_ok_iff.mp h
      exact ih (hStep s i next hStart hNext) hRest

/-- A run ends in a fault of one of its steps. -/
theorem runAll_fault {known : Fault → Prop} {f : Fault}
    (hStep : ∀ s i t, holds s → (step s i).result = .ok t → holds t)
    (hFault : ∀ s i f, holds s → (step s i).result = .error f → known f)
    (hStart : holds s) (h : (runAll step s is).result = .error f) : known f := by
  induction is generalizing s with
  | nil => contradiction
  | cons i rest ih =>
      rcases Outcome.result_bind_eq_error_iff.mp h with hHead | ⟨next, hNext, hRest⟩
      · exact hFault s i f hStart hHead
      · exact ih (hStep s i next hStart hNext) hRest

/-- The second part of a run starts where the first one ends. -/
theorem runAll_append (more : List ι) :
    runAll step s (is ++ more) = (runAll step s is).bind (runAll step · more) := by
  induction is generalizing s with
  | nil => rfl
  | cons i rest ih => simp only [List.cons_append, runAll, Outcome.bind_assoc, ih]

/-- Steps that are made of other things are taken by taking those. -/
theorem runAll_map {κ : Type} (f : κ → ι) (ks : List κ) :
    runAll step s (ks.map f) = runAll (fun s k => step s (f k)) s ks := by
  induction ks generalizing s with
  | nil => rfl
  | cons k rest ih => simp only [List.map_cons, runAll, ih]

/-- A run that begins with one step and ends with another. -/
theorem runAll_between {κ : Type} (first last : ι) (f : κ → ι) (ks : List κ) :
    runAll step s (first :: (ks.map f ++ [last])) =
      (step s first).bind fun t =>
        (runAll (fun t k => step t (f k)) t ks).bind (step · last) := by
  refine Outcome.bind_congr fun t _ => ?_
  rw [runAll_append, runAll_map]
  exact Outcome.bind_congr fun _ _ => Outcome.bind_ok _

/-- A step that leaves what it made as it is may be taken twice. -/
theorem runAll_twice {i : ι} (h : ∀ t, (step s i).result = .ok t → step t i = .ok t) :
    runAll step s [i, i] = step s i := by
  refine Outcome.bind_eq_self fun t hStep => ?_
  exact (Outcome.bind_ok _).trans (h t hStep)

/-- A run on a part of a greater state is a run on the part. -/
theorem runAll_embed {τ : Type} {whole : τ → ι → Outcome τ} {embed : σ → τ}
    (hStep : ∀ s i, whole (embed s) i = (step s i).map embed) :
    runAll whole (embed s) is = (runAll step s is).map embed := by
  induction is generalizing s with
  | nil => rfl
  | cons i rest ih =>
      simp only [runAll, hStep, Outcome.map_eq_bind, Outcome.bind_assoc, Outcome.ok_bind]
      exact Outcome.bind_congr fun next _ => by rw [ih, Outcome.map_eq_bind]

/-- The last request is handled by what the others leave. -/
theorem after_concat {ω : Type} (handle : σ → ι → ω × σ) (s : σ) (requests : List ι) (i : ι) :
    after handle s (requests ++ [i]) = (handle (after handle s requests) i).2 := by
  rw [after, List.foldl_append]
  rfl

/-- Two containers stay related while they handle the same requests. -/
theorem after_related {τ ω ψ : Type} {handle : σ → ι → ω × σ} {other : τ → ι → ψ × τ}
    {t : τ} (related : σ → τ → Prop)
    (hStep : ∀ s t i, related s t → related (handle s i).2 (other t i).2) (hStart : related s t)
    (requests : List ι) : related (after handle s requests) (after other t requests) := by
  induction requests generalizing s t with
  | nil => exact hStart
  | cons i rest ih => exact ih (hStep s t i hStart)

end OperandReport
