import OperandReport.Instruction

/-!
# Names of modes

A mode is written as a list of names, in any case.  Each name stands for one flag, or
for none: the flags of the list are put together.

## Main results

* `ofNames?_append`: the mode of a list is the union of the modes of its parts.
* `ofNames?_singleton`: one name means what the list of it means.
-/

namespace OperandReport.Mode

/-- The mode that a name stands for, in lower case. -/
def ofLowerName? : String → Option Mode
  | "arm" | "little_endian" | "le" => some {}
  | "thumb" => some { thumb := true }
  | "v8" => some { v8 := true }
  | "mclass" => some { mClass := true }
  | "big_endian" | "be" => some { bigEndian := true }
  | "64" | "mode_64" => some { wide := true }
  | _ => none

/-- The mode that a name stands for; the case of its ASCII letters does not matter. -/
def ofName? (name : String) : Option Mode := ofLowerName? (name.map Char.toLower)

/-- The union of the modes that the names stand for, if all of them are known. -/
def ofNames? (names : List String) : Option Mode :=
  names.foldlM (fun m name => (ofName? name).map m.union) {}

@[simp] theorem empty_union (m : Mode) : ({} : Mode).union m = m := by
  simp [union]

@[simp] theorem union_empty (m : Mode) : m.union {} = m := by
  simp [union]

theorem union_assoc (m k l : Mode) : (m.union k).union l = m.union (k.union l) := by
  simp [union, Bool.or_assoc]

theorem union_comm (m k : Mode) : m.union k = k.union m := by
  simp [union, Bool.or_comm]

@[simp] theorem union_self (m : Mode) : m.union m = m := by
  simp [union]

@[simp] theorem map_empty_union (x : Option Mode) : x.map ({} : Mode).union = x := by
  cases x <;> simp

theorem ofNames?_singleton (name : String) : ofNames? [name] = ofName? name := by
  simp [ofNames?]

/-- A list that starts from the flags of `m` adds its own flags to them. -/
theorem foldlM_ofName? (m : Mode) (names : List String) :
    names.foldlM (fun m name => (ofName? name).map m.union) m = (ofNames? names).map m.union := by
  induction names generalizing m with
  | nil => simp [ofNames?]
  | cons name names ih =>
    rw [ofNames?, List.foldlM_cons, List.foldlM_cons]
    cases ofName? name with
    | none => rfl
    | some k =>
      simp only [Option.map_some, Option.bind_eq_bind, Option.bind_some, empty_union]
      rw [ih, ih k]
      cases ofNames? names <;> simp [union_assoc]

theorem ofNames?_cons (name : String) (names : List String) :
    ofNames? (name :: names) = (ofName? name).bind fun m => (ofNames? names).map m.union := by
  rw [ofNames?, List.foldlM_cons]
  cases ofName? name with
  | none => rfl
  | some m =>
    simp only [Option.map_some, Option.bind_eq_bind, Option.bind_some, empty_union]
    exact foldlM_ofName? m names

theorem ofNames?_append (a b : List String) :
    ofNames? (a ++ b) = (ofNames? a).bind fun m => (ofNames? b).map m.union := by
  simp only [ofNames?, List.foldlM_append]
  cases List.foldlM (fun m name => (ofName? name).map m.union) ({} : Mode) a with
  | none => rfl
  | some m => exact foldlM_ofName? m b

end OperandReport.Mode
