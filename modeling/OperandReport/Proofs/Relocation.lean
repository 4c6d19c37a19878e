/-!
# One place that depends on where an instruction stands

Of the sites of an instruction at most one shows a branch target; what the others complete
does not depend on where the instruction stands.  What all sites complete together is then
fixed before and after the target.

Both lemmas are about lists and leave open what a site is, what it shows, and what the
target depends on.

## Main results

* `flatMap_relocated`: what stands before the target and after it is fixed.
* `findSome?_eq_some_iff_of_alone`: the first offset is the only one.
-/

namespace OperandReport

variable {σ ν ω π : Type} {offset? : σ → Option ν} {sites : List σ}

/-- At most one of the sites has an offset. -/
def Alone (offset? : σ → Option ν) (sites : List σ) : Prop :=
  sites.Pairwise fun site other => offset? site = none ∨ offset? other = none

/-- If sites without an offset show the same from everywhere, and at most one site has an
offset, then all of them together show the same but for its target. -/
theorem flatMap_relocated {shows : π → σ → List ω} {target : π → ν → List ω} (p : π)
    (hNone : ∀ site ∈ sites, offset? site = none → ∀ q, shows q site = shows p site)
    (hSome : ∀ site ∈ sites, ∀ v, offset? site = some v → ∀ q, shows q site = target q v)
    (hAlone : Alone offset? sites) :
    ∃ before after : List ω, ∀ q,
      sites.flatMap (shows q) =
        before ++ (sites.findSome? offset?).toList.flatMap (target q) ++ after := by
  induction sites with
  | nil => exact ⟨[], [], fun _ => rfl⟩
  | cons site rest ih =>
      obtain ⟨hFirstNone, hOthersNone⟩ := List.forall_mem_cons.mp hNone
      obtain ⟨hFirstSome, hOthersSome⟩ := List.forall_mem_cons.mp hSome
      obtain ⟨hFirstAlone, hOthersAlone⟩ := List.pairwise_cons.mp hAlone
      cases hOffset : offset? site with
      | none =>
          obtain ⟨before, after, hRest⟩ := ih hOthersNone hOthersSome hOthersAlone
          refine ⟨shows p site ++ before, after, fun q => ?_⟩
          rw [List.flatMap_cons, hFirstNone hOffset, hRest, List.findSome?_cons, hOffset]
          simp
      | some v =>
          -- The other sites have no offset, so nothing behind the target depends on the place.
          refine ⟨[], rest.flatMap (shows p), fun q => ?_⟩
          have hSame : rest.flatMap (shows q) = rest.flatMap (shows p) := by
            rw [List.flatMap_def, List.flatMap_def]
            refine congrArg List.flatten (List.map_congr_left fun other hOther => ?_)
            have hOtherNone : offset? other = none := by
              simpa [hOffset] using hFirstAlone other hOther
            exact hOthersNone other hOther hOtherNone q
          rw [List.flatMap_cons, hFirstSome v hOffset, hSame, List.findSome?_cons, hOffset]
          simp

/-- Where at most one site has an offset, the first offset is the only one. -/
theorem findSome?_eq_some_iff_of_alone {v : ν} (hAlone : Alone offset? sites) :
    sites.findSome? offset? = some v ↔ ∃ site ∈ sites, offset? site = some v := by
  induction sites with
  | nil => simp
  | cons site rest ih =>
      obtain ⟨hFirstAlone, hOthersAlone⟩ := List.pairwise_cons.mp hAlone
      rw [List.findSome?_cons]
      cases hOffset : offset? site with
      | none => simp [hOffset, ih hOthersAlone]
      | some w =>
          constructor
          · intro hSame
            exact ⟨site, List.mem_cons_self, hOffset.trans hSame⟩
          · rintro ⟨other, hMem, hOther⟩
            rcases List.mem_cons.mp hMem with rfl | hMem
            · exact hOffset.symm.trans hOther
            · have hNone := hFirstAlone other hMem
              simp [hOffset, hOther] at hNone

end OperandReport
