import OperandReport.Settings

/-!
# Lists of mode names

Names are compared in lower case, and a list of names asks for a flag if one of its names does.
So the mode of a list depends on the set of its lower-case names only: neither the order nor
repetitions nor the case of letters matter, and a name without a flag adds nothing.

A settings text hands its names to the mode field in two ways, as the scalars of a list or as
one scalar.  The rest of the text does not see which names these are.  A step lemma says so of
one field and a run lemma of all fields behind it, so that the settings with a list of names are
those with an empty list, up to the mode.

## Main results

* `Mode.ofNames?_eq`: the mode of a list, in closed form.
* `Fields.foldlM_extend?_withMode`: the fields behind the mode do not see it.
* `ModeField.exists_of_mem`: a document with an entry of that name has a mode field.
* `ModeField.read?_eq`: what the whole document gives.
* `ModeField.read?_orderFree`: the settings see the set of the lower-case names only.
-/

namespace OperandReport

namespace Mode

/-- A name as it is compared. -/
def lower (name : String) : String := name.map Char.toLower

/-- The names that stand for no flag. -/
def neutralNames : List String := ["arm", "little_endian", "le"]

/-- All names, in lower case. -/
def knownNames : List String :=
  neutralNames ++ ["thumb", "v8", "mclass", "big_endian", "be", "64", "mode_64"]

/-- Each name is known, whatever its case. -/
def AllKnown (names : List String) : Prop := ∀ name ∈ names, lower name ∈ knownNames

instance (names : List String) : Decidable (AllKnown names) :=
  inferInstanceAs (Decidable (∀ name ∈ names, lower name ∈ knownNames))

/-- The flags that lower-case names ask for. -/
def flagsOf (names : List String) : Mode where
  thumb := names.contains "thumb"
  v8 := names.contains "v8"
  mClass := names.contains "mclass"
  bigEndian := names.contains "big_endian" || names.contains "be"
  wide := names.contains "64" || names.contains "mode_64"

theorem flagsOf_cons (name : String) (names : List String) :
    flagsOf (name :: names) = (flagsOf [name]).union (flagsOf names) := by
  simp [flagsOf, union, Bool.or_assoc, Bool.or_left_comm]

/-- The flags depend on the set of the names only. -/
theorem flagsOf_congr {names others : List String}
    (h : ∀ name, name ∈ names ↔ name ∈ others) : flagsOf names = flagsOf others := by
  have hContains : names.contains = others.contains := by
    funext name
    rw [Bool.eq_iff_iff, List.contains_iff_mem, List.contains_iff_mem]
    exact h name
  rw [flagsOf, hContains, flagsOf]

theorem flagsOf_of_neutral {name : String} (h : name ∈ neutralNames) : flagsOf [name] = {} := by
  have hAll : ∀ name ∈ neutralNames, flagsOf [name] = {} := by decide
  exact hAll name h

/-- A name stands for the flags that it asks for, if it is known. -/
theorem ofName?_eq (name : String) :
    ofName? name = if lower name ∈ knownNames then some (flagsOf [lower name]) else none := by
  show ofLowerName? (lower name) = _
  generalize lower name = text
  unfold ofLowerName?
  split
  case h_11 hArm hLittle hLe hThumb hV8 hMClass hBig hBe h64 hMode =>
    rw [if_neg]
    simp only [knownNames, neutralNames, List.cons_append, List.nil_append, List.mem_cons,
      List.not_mem_nil, or_false, not_or]
    exact ⟨hArm, hLittle, hLe, hThumb, hV8, hMClass, hBig, hBe, h64, hMode⟩
  all_goals rfl

theorem allKnown_cons {name : String} {names : List String} :
    AllKnown (name :: names) ↔ lower name ∈ knownNames ∧ AllKnown names :=
  List.forall_mem_cons

/-- A list stands for the flags that its names ask for, if all of them are known. -/
theorem ofNames?_eq (names : List String) :
    ofNames? names = if AllKnown names then some (flagsOf (names.map lower)) else none := by
  induction names with
  | nil => rfl
  | cons name names ih =>
      have hFlags := flagsOf_cons (lower name) (names.map lower)
      rw [ofNames?_cons, ofName?_eq, ih, List.map_cons, hFlags]
      by_cases hName : lower name ∈ knownNames
      · by_cases hNames : AllKnown names
        · rw [if_pos hName, if_pos hNames, if_pos (allKnown_cons.mpr ⟨hName, hNames⟩)]
          rfl
        · rw [if_pos hName, if_neg hNames, if_neg (mt allKnown_cons.mp (hNames ·.2))]
          rfl
      · rw [if_neg hName, if_neg (mt allKnown_cons.mp (hName ·.1))]
        rfl

/-- Whether names are known depends on the set of the lower-case names only. -/
theorem allKnown_iff (names : List String) :
    AllKnown names ↔ ∀ name ∈ names.map lower, name ∈ knownNames := by
  simp [AllKnown]

/-- Lists with the same lower-case names stand for the same mode. -/
theorem ofNames?_congr {names others : List String}
    (h : ∀ name, name ∈ names.map lower ↔ name ∈ others.map lower) :
    ofNames? names = ofNames? others := by
  have hKnown : AllKnown names ↔ AllKnown others := by
    simp only [allKnown_iff, h]
  rw [ofNames?_eq, ofNames?_eq, flagsOf_congr h]
  simp only [hKnown]

/-- A name without a flag adds nothing, wherever it stands. -/
theorem ofNames?_insert_neutral {name : String} (h : lower name ∈ neutralNames)
    (before after : List String) :
    ofNames? (before ++ name :: after) = ofNames? (before ++ after) := by
  have hKnown : lower name ∈ knownNames := List.mem_append_left _ h
  have hName : ofName? name = some {} := by
    rw [ofName?_eq, if_pos hKnown, flagsOf_of_neutral h]
  rw [ofNames?_append, ofNames?_append, ofNames?_cons, hName, Option.bind_some, map_empty_union]

end Mode

namespace Settings

open Yaml

/-! ## Fields behind the mode -/

namespace Fields

/-- Adds the field of an entry. -/
def extend? (d : Document) (f : Fields) : Node × Node → Option Fields
  | (key, value) => do f.add? d (← text? (d.target key)) value

/-- The fields with another mode. -/
def withMode (f : Fields) (m : Mode) : Fields := { f with mode := some m }

/-- Adding a field to fields with a mode does not look at which mode it is. -/
theorem add?_withMode (f : Fields) (m k : Mode) (d : Document) (name : String) (value : Node) :
    (f.withMode m).add? d name value =
      ((f.withMode k).add? d name value).map (·.withMode m) := by
  unfold add? withMode
  split
  · cases f.architecture with
    | none => cases architecture? (d.target value) with
      | none => rfl
      | some a => rfl
    | some a => rfl
  · rfl
  · cases f.detail with
    | none => cases detail? (d.target value) with
      | none => rfl
      | some b => rfl
    | some b => rfl
  · rfl

theorem extend?_withMode (f : Fields) (m k : Mode) (d : Document) (entry : Node × Node) :
    extend? d (f.withMode m) entry = (extend? d (f.withMode k) entry).map (·.withMode m) := by
  obtain ⟨key, value⟩ := entry
  show (text? (d.target key)).bind (fun name => (f.withMode m).add? d name value) =
    ((text? (d.target key)).bind fun name => (f.withMode k).add? d name value).map (·.withMode m)
  cases text? (d.target key) with
  | none => rfl
  | some name => exact add?_withMode f m k d name value

/-- Nor do any fields behind the mode. -/
theorem foldlM_extend?_withMode (d : Document) (m k : Mode) (entries : List (Node × Node))
    (f : Fields) :
    entries.foldlM (extend? d) (f.withMode m) =
      (entries.foldlM (extend? d) (f.withMode k)).map (·.withMode m) := by
  induction entries generalizing f with
  | nil => rfl
  | cons entry entries ih =>
      rw [List.foldlM_cons, List.foldlM_cons, extend?_withMode f m k]
      cases hStep : extend? d (f.withMode k) entry with
      | none => rfl
      | some g =>
          -- The step keeps the mode `k`, so that the hypothesis applies to what it gives.
          have hKept : g.withMode k = g := by
            have hSelf := extend?_withMode f k k d entry
            rw [hStep] at hSelf
            exact (Option.some.inj hSelf).symm
          show entries.foldlM (extend? d) (g.withMode m) =
            (entries.foldlM (extend? d) g).map (·.withMode m)
          rw [ih g, hKept]

end Fields

theorem ofDocument?_mapping (entries : List (Node × Node)) (p : Properties)
    (anchored : List Node) :
    ofDocument? ⟨.mapping entries p, anchored⟩ =
      (entries.foldlM (Fields.extend? ⟨.empty, anchored⟩) {}).map Fields.settings := rfl

/-! ## Mode fields -/

/-- A node hands these names to a mode field: it is a list of scalars with these texts, or a
single scalar that is a text with this name. -/
inductive Delivers (d : Document) : Node → List String → Prop where
  | list {items : List Node} {p : Properties} {names : List String}
      (hTag : localName? p = none)
      (hItems : items.mapM (fun item => text? (d.target item)) = some names) :
      Delivers d (.sequence items p) names
  | single {text : String} {style : Style} {p : Properties} {name : String}
      (hName : modeName? text style p = some name) : Delivers d (.scalar text style p) [name]

/-- Either way the mode is the one of the names. -/
theorem Delivers.mode?_eq {d : Document} {value : Node} {names : List String}
    (h : Delivers d value names) : mode? d value = Mode.ofNames? names := by
  cases h with
  | list hTag hItems =>
      unfold mode?
      dsimp only
      rw [if_neg (by simp [hTag]), hItems, Option.bind_some]
  | single hName =>
      unfold mode?
      dsimp only
      rw [hName, Option.bind_some, Mode.ofNames?_singleton]

/-- Every list of names is handed over by some node, for instance by quoted scalars. -/
theorem delivers_quoted (d : Document) (names : List String) :
    Delivers d (.sequence (names.map fun name => .scalar name .double {}) {}) names := by
  refine .list rfl ?_
  induction names with
  | nil => rfl
  | cons name names ih =>
      rw [List.map_cons, List.mapM_cons, ih]
      rfl

/-- A scalar that is not plain is the name that it writes. -/
theorem delivers_text (d : Document) (name : String) {style : Style} (h : style ≠ .plain) :
    Delivers d (.scalar name style {}) [name] := by
  refine .single ?_
  show some (if style = .plain then plainName name else name) = some name
  rw [if_neg h]

/-- A settings document up to the value of its mode field: the entries in front of the field
and behind it, and the nodes that an alias may lead to. -/
structure ModeField where
  anchored : List Node
  before : List (Node × Node)
  key : Node
  after : List (Node × Node)
  properties : Properties
  key_text : text? (Document.target ⟨.empty, anchored⟩ key) = some "mode"

namespace ModeField

variable (c : ModeField) {value : Node} {names : List String}

/-- The document with a value in its mode field. -/
def document (value : Node) : Document where
  root := .mapping (c.before ++ (c.key, value) :: c.after) c.properties
  anchored := c.anchored

/-- The settings with a value in the mode field. -/
def read? (value : Node) : Option Settings := ofDocument? (c.document value)

/-- The value of the mode field, or the node that it is an alias of, hands over these names. -/
def Holds (value : Node) (names : List String) : Prop :=
  Delivers (c.document value) ((c.document value).target value) names

/-- A document with an entry whose key is the name of the mode field has a mode field. -/
theorem exists_of_mem {d : Document} {entries : List (Node × Node)} {p : Properties}
    {key value : Node} (hRoot : d.root = .mapping entries p) (hEntry : (key, value) ∈ entries)
    (hKey : text? (d.target key) = some "mode") : ∃ c : ModeField, d = c.document value := by
  obtain ⟨before, after, rfl⟩ := List.append_of_mem hEntry
  obtain ⟨root, anchored⟩ := d
  cases hRoot
  exact ⟨⟨anchored, before, key, after, p, hKey⟩, rfl⟩

/-- The mode field may be given once, and its value is the mode of the names. -/
theorem extend?_eq (h : c.Holds value names) (f : Fields) :
    f.extend? ⟨.empty, c.anchored⟩ (c.key, value) =
      if f.mode.isNone then (Mode.ofNames? names).map f.withMode else none := by
  have hMode : mode? ⟨.empty, c.anchored⟩ (Document.target ⟨.empty, c.anchored⟩ value) =
      Mode.ofNames? names := h.mode?_eq
  show (text? (Document.target ⟨.empty, c.anchored⟩ c.key)).bind (fun name =>
    f.add? ⟨.empty, c.anchored⟩ name value) = _
  rw [c.key_text, Option.bind_some]
  unfold Fields.add?
  rw [hMode]
  cases f.mode with
  | none => cases Mode.ofNames? names with
    | none => rfl
    | some m => rfl
  | some k => rfl

/-- The settings once the fields up to the mode are read. -/
def readBehind? (f : Fields) : Option Settings :=
  (c.after.foldlM (Fields.extend? ⟨.empty, c.anchored⟩) f).map Fields.settings

theorem readBehind?_withMode (f : Fields) (m k : Mode) :
    c.readBehind? (f.withMode m) = (c.readBehind? (f.withMode k)).map ({ · with mode := m }) := by
  unfold readBehind?
  rw [Fields.foldlM_extend?_withMode _ m k, Option.map_map, Option.map_map]
  rfl

/-- The fields are read in order: those in front of the mode, the mode, and the rest. -/
theorem read?_eq_bind (value : Node) :
    c.read? value =
      (c.before.foldlM (Fields.extend? ⟨.empty, c.anchored⟩) {}).bind fun f =>
        (f.extend? ⟨.empty, c.anchored⟩ (c.key, value)).bind c.readBehind? := by
  unfold read? document
  rw [ofDocument?_mapping, List.foldlM_append]
  cases c.before.foldlM (Fields.extend? ⟨.empty, c.anchored⟩) {} with
  | none => rfl
  | some f =>
      rw [Option.bind_eq_bind, Option.bind_some, Option.bind_some, List.foldlM_cons]
      cases f.extend? ⟨.empty, c.anchored⟩ (c.key, value) with
      | none => rfl
      | some g => rfl

/-- The settings with names in the mode field are those with an empty list there, up to the
mode, if the names are known. -/
theorem read?_eq (h : c.Holds value names) :
    c.read? value = (Mode.ofNames? names).bind fun m =>
      (c.read? (.sequence [] {})).map ({ · with mode := m }) := by
  have hEmpty : c.Holds (.sequence [] {}) [] := .list rfl rfl
  rw [read?_eq_bind, read?_eq_bind]
  cases c.before.foldlM (Fields.extend? ⟨.empty, c.anchored⟩) {} with
  | none => cases Mode.ofNames? names with
    | none => rfl
    | some m => rfl
  | some f =>
      rw [Option.bind_some, Option.bind_some, c.extend?_eq h, c.extend?_eq hEmpty]
      cases f.mode.isNone with
      | false => cases Mode.ofNames? names with
        | none => rfl
        | some m => rfl
      | true => cases Mode.ofNames? names with
        | none => rfl
        | some m => exact c.readBehind?_withMode f m {}

/-- A text with such a document gives what is read from the document. -/
theorem ofText?_eq {text : String} (hContent : text.toList.all isSpace = false)
    (hText : Document.ofText? text = some (some (c.document value))) :
    ofText? text = c.read? value := by
  unfold ofText?
  rw [if_neg (by simp [hContent]), hText]
  rfl

/-- A mode field with names is read as the union of their flags if each of them is known in
some case, and otherwise the whole settings are refused; but for the mode, the settings are
those with an empty list of names.  The session has just this mode.  The settings are the same
for every list with the same lower-case names, in any order, case and number; a name without a
flag can be put anywhere; and a text that stands alone is the list of it. -/
theorem read?_orderFree (h : c.Holds value names) :
    (mode? (c.document value) ((c.document value).target value) =
      if Mode.AllKnown names then some (Mode.flagsOf (names.map Mode.lower)) else none) ∧
    (c.read? value =
      if Mode.AllKnown names then
        (c.read? (.sequence [] {})).map
          ({ · with mode := Mode.flagsOf (names.map Mode.lower) })
      else none) ∧
    (∀ s, c.read? value = some s → s.session.mode = Mode.flagsOf (names.map Mode.lower)) ∧
    (∀ (other : Node) (others : List String), c.Holds other others →
      (∀ name, name ∈ names.map Mode.lower ↔ name ∈ others.map Mode.lower) →
      c.read? other = c.read? value) ∧
    (∀ (other : Node) (before after : List String) (name : String), names = before ++ after →
      Mode.lower name ∈ Mode.neutralNames → c.Holds other (before ++ name :: after) →
      c.read? other = c.read? value) ∧
    (∀ (style : Style) (name : String), style ≠ .plain → names = [name] →
      c.read? (.scalar name style {}) = c.read? value) ∧
    ∀ text : String, text.toList.all isSpace = false →
      Document.ofText? text = some (some (c.document value)) → ofText? text = c.read? value := by
  have hRead : c.read? value =
      if Mode.AllKnown names then
        (c.read? (.sequence [] {})).map
          ({ · with mode := Mode.flagsOf (names.map Mode.lower) })
      else none := by
    rw [c.read?_eq h, Mode.ofNames?_eq]
    split
    · rfl
    · rfl
  refine ⟨?_, hRead, fun s hs => ?_, fun other others hOther hSame => ?_,
    fun other before after name hNames hNeutral hOther => ?_,
    fun style name hStyle hNames => ?_, fun text => c.ofText?_eq⟩
  · rw [h.mode?_eq, Mode.ofNames?_eq]
  · rw [hRead] at hs
    split at hs
    · obtain ⟨t, _, rfl⟩ := Option.map_eq_some_iff.mp hs
      rfl
    · contradiction
  · rw [c.read?_eq h, c.read?_eq hOther, Mode.ofNames?_congr hSame]
  · subst hNames
    rw [c.read?_eq h, c.read?_eq hOther, Mode.ofNames?_insert_neutral hNeutral]
  · subst hNames
    have hSingle : c.Holds (.scalar name style {}) [name] := delivers_text _ name hStyle
    rw [c.read?_eq h, c.read?_eq hSingle]

/-- A text without detail whose mode is a list of names. -/
def mixedText : String := "detail: false\nmode: [Thumb, LE, v8, THUMB]\n"

/-- The names in it: two of them differ in their case only, and one has no flag. -/
def mixedNames : List String := ["Thumb", "LE", "v8", "THUMB"]

/-- The list of names as it stands in the text. -/
def mixedList : Node := .sequence (mixedNames.map (.scalar · .plain {})) {}

/-- The mode field of the text. -/
def mixedField : ModeField where
  anchored := []
  before := [(.scalar "detail" .plain {}, .scalar "false" .plain {})]
  key := .scalar "mode" .plain {}
  after := []
  properties := {}
  key_text := rfl

/-- The names are handed over, the text is read as the document is, and quoted scalars in
another order and case, each of them once, give the same. -/
theorem read?_mixedNames :
    mixedField.Holds mixedList mixedNames ∧
      mixedField.read? mixedList =
        some { mode := { thumb := true, v8 := true }, detail := false } ∧
      ofText? mixedText = mixedField.read? mixedList ∧
      mixedField.read? (.sequence (["le", "V8", "thumb"].map (.scalar · .double {})) {}) =
        mixedField.read? mixedList := by
  have hHolds : mixedField.Holds mixedList mixedNames := .list rfl rfl
  obtain ⟨_, hRead, _, hSame, _⟩ := mixedField.read?_orderFree hHolds
  refine ⟨hHolds, ?_, ?_, hSame _ ["le", "V8", "thumb"] (delivers_quoted _ _) fun name => ?_⟩
  · rw [hRead]
    decide +kernel
  · rw [hRead]
    decide +kernel
  · have hNames : mixedNames.map Mode.lower = ["thumb", "le", "v8", "thumb"] := by decide +kernel
    have hOthers : ["le", "V8", "thumb"].map Mode.lower = ["le", "v8", "thumb"] := by
      decide +kernel
    rw [hNames, hOthers]
    simp only [List.mem_cons, List.not_mem_nil, or_false]
    constructor
    · rintro (rfl | rfl | rfl | rfl) <;> simp
    · rintro (rfl | rfl | rfl) <;> simp

end ModeField

end Settings

end OperandReport
