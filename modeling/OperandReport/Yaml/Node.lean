import OperandReport.Yaml.Token.Layout

/-!
# Nodes

The content of a document is a node: a scalar, a sequence or a mapping, or an alias in
its place.  In front of it may stand an anchor and a tag.  A node that is left out is an
empty plain scalar.

Anchors are known by number.  The number of an anchor is how many names were in use
before it, so an anchor whose name was in use takes a number that a later anchor may
take too.  An alias has the number that its name has where it stands.

## Main results

* `lookup_rename_self`, `lookup_rename_ne`: an anchor renumbers its own name only.
-/

namespace OperandReport.Yaml

/-- What stands in front of a node. -/
structure Properties where
  /-- the number of the anchor -/
  anchor : Option Nat := none
  tag : Option Tag := none
  deriving DecidableEq, Repr, Inhabited

/-- A node of a document. -/
inductive Node where
  | scalar (text : String) (style : Style) (properties : Properties)
  | sequence (items : List Node) (properties : Properties)
  | mapping (entries : List (Node × Node)) (properties : Properties)
  /-- an alias, with the number of its anchor -/
  | aliasOf (number : Nat)
  deriving Repr, Inhabited

namespace Node

/-- A node that is left out. -/
def empty (properties : Properties := {}) : Node := .scalar "" .plain properties

/-- The number of the anchor in front of a node. -/
def anchor? : Node → Option Nat
  | .scalar _ _ p | .sequence _ p | .mapping _ p => p.anchor
  | .aliasOf _ => none

mutual

/-- A node and all nodes in it, in the order in which they start. -/
def nodes (n : Node) : List Node :=
  n :: match n with
    | .sequence items _ => nodesOfItems items
    | .mapping entries _ => nodesOfEntries entries
    | _ => []

/-- The nodes in the items of a sequence. -/
def nodesOfItems : List Node → List Node
  | [] => []
  | item :: items => nodes item ++ nodesOfItems items

/-- The nodes in the entries of a mapping; a key comes before its value. -/
def nodesOfEntries : List (Node × Node) → List Node
  | [] => []
  | (key, value) :: entries => nodes key ++ nodes value ++ nodesOfEntries entries

end

/-! ## Names of anchors -/

/-- The names in use, with a number for each of them, after an anchor. -/
def rename (names : List (String × Nat)) (name : String) : List (String × Nat) :=
  (name, names.length) :: names.filter (·.1 != name)

theorem lookup_rename_self (names : List (String × Nat)) (name : String) :
    (rename names name).lookup name = some names.length := by
  simp [rename]

theorem lookup_filter_ne (names : List (String × Nat)) {name other : String} (h : other ≠ name) :
    (names.filter (·.1 != name)).lookup other = names.lookup other := by
  induction names with
  | nil => rfl
  | cons entry names ih =>
    obtain ⟨first, number⟩ := entry
    by_cases hf : first = name
    · subst hf
      simp [List.lookup_cons, ih, beq_false_of_ne h]
    · simp [List.lookup_cons, hf, ih]

theorem lookup_rename_ne (names : List (String × Nat)) {name other : String} (h : other ≠ name) :
    (rename names name).lookup other = names.lookup other := by
  simp [rename, List.lookup_cons, beq_false_of_ne h, lookup_filter_ne names h]

/-! ## Reading -/

/-- What is left to read of a document, and the names of the part read so far. -/
structure Reading where
  tokens : List Token
  /-- the lead of a tag for each handle -/
  handles : List (String × List UInt8) := []
  /-- the number for each name of an anchor -/
  names : List (String × Nat) := []
  deriving Inhabited

/-- A reader of a part of a document; it fails on a malformed one. -/
abbrev Reader (α : Type) := StateT Reading Option α

namespace Reader

/-- The next token. -/
def peek : Reader (Option Token) := do return (← get).tokens.head?

/-- Goes on behind the next token. -/
def advance : Reader Unit := modify fun r => { r with tokens := r.tokens.tail }

/-- The next token is one of these. -/
def atAny (tokens : List Token) : Reader Bool := do return (← peek).any tokens.contains

/-- Goes on behind the next token, which must be the given one. -/
def expect (t : Token) : Reader Unit := do
  guard ((← peek) == some t)
  advance

/-- The number that the name of an anchor has here. -/
def numberOf (name : String) : Reader Nat := do (← get).names.lookup name

/-- Sets an anchor and gives its number. -/
def declare (name : String) : Reader Nat := do
  modify fun r => { r with names := rename r.names name }
  numberOf name

/-- Reads a tag, if there is one.  Its handle is replaced by the lead that the handle
stands for. -/
def tag? : Reader (Option Tag) := do
  match ← peek with
  | some (.tag handle suffix) =>
    advance
    if handle.isEmpty then return some ⟨suffix⟩
    let lead ← (← get).handles.lookup handle
    return some ⟨lead ++ suffix⟩
  | _ => return none

/-- Reads an anchor, if there is one. -/
def anchor? : Reader (Option Nat) := do
  match ← peek with
  | some (.anchor name) =>
    advance
    return some (← declare name)
  | _ => return none

/-- Reads the anchor and the tag of a node, in either order. -/
def properties : Reader Properties := do
  match ← peek with
  | some (.tag ..) =>
    let tag ← tag?
    return { anchor := ← anchor?, tag }
  | _ =>
    let anchor ← anchor?
    return { anchor, tag := ← tag? }

mutual

/-- Reads a node, in at most as many steps as the first argument says.  `block` admits
block collections, and `flush` a sequence whose entries stand at the column of the
mapping around it. -/
def node (fuel : Nat) (block flush : Bool) : Reader Node :=
  match fuel with
  | 0 => failure
  | fuel + 1 => do
    if let some (.aliasOf name) ← peek then
      advance
      return .aliasOf (← numberOf name)
    let p ← properties
    match ← peek with
    | some (.scalar text style) =>
      advance
      return .scalar text style p
    | some .flowSequence =>
      advance
      return .sequence (← flowItems fuel true) p
    | some .flowMapping =>
      advance
      return .mapping (← flowEntries fuel true) p
    | t =>
      if flush && t == some .entry then
        return .sequence (← flushItems fuel) p
      else if block && t == some .blockSequence then
        advance
        return .sequence (← blockItems fuel) p
      else if block && t == some .blockMapping then
        advance
        return .mapping (← blockEntries fuel) p
      else
        guard (p != {})
        return .empty p

/-- Reads a node, or takes it for left out before one of the given tokens. -/
def nodeUnless (fuel : Nat) (stops : List Token) (block flush : Bool) : Reader Node :=
  match fuel with
  | 0 => failure
  | fuel + 1 => do if ← atAny stops then return .empty else node fuel block flush

/-- Reads the entries of a block sequence, to its end. -/
def blockItems (fuel : Nat) : Reader (List Node) :=
  match fuel with
  | 0 => failure
  | fuel + 1 => do
    match ← peek with
    | some .entry =>
      advance
      let item ← nodeUnless fuel [.entry, .blockEnd] true false
      return item :: (← blockItems fuel)
    | some .blockEnd => advance; return []
    | _ => failure

/-- Reads the entries of a sequence that no block encloses. -/
def flushItems (fuel : Nat) : Reader (List Node) :=
  match fuel with
  | 0 => failure
  | fuel + 1 => do
    match ← peek with
    | some .entry =>
      advance
      let item ← nodeUnless fuel [.entry, .key, .value, .blockEnd] true false
      return item :: (← flushItems fuel)
    | _ => return []

/-- Reads the entries of a block mapping, to its end. -/
def blockEntries (fuel : Nat) : Reader (List (Node × Node)) :=
  match fuel with
  | 0 => failure
  | fuel + 1 => do
    match ← peek with
    | some .key =>
      advance
      let key ← nodeUnless fuel [.key, .value, .blockEnd] true true
      let value ←
        if (← peek) == some .value then do
          advance
          nodeUnless fuel [.key, .value, .blockEnd] true true
        else pure .empty
      return (key, value) :: (← blockEntries fuel)
    | some .blockEnd => advance; return []
    | _ => failure

/-- Reads the value of an entry in a flow collection, if one is written. -/
def flowValue (fuel : Nat) (close : Token) : Reader Node :=
  match fuel with
  | 0 => failure
  | fuel + 1 => do
    if (← peek) == some .value then
      advance
      nodeUnless fuel [.comma, close] false false
    else return .empty

/-- Reads the items of a flow sequence, to its end.  An item with a key is a mapping of
one entry; where its key is left out, the token in its place is passed over. -/
def flowItems (fuel : Nat) (first : Bool) : Reader (List Node) :=
  match fuel with
  | 0 => failure
  | fuel + 1 => do
    unless first || (← atAny [.flowSequenceEnd]) do expect .comma
    match ← peek with
    | some .flowSequenceEnd => advance; return []
    | some .key =>
      advance
      let key : Node ←
        if ← atAny [.value, .comma, .flowSequenceEnd] then do
          advance
          pure .empty
        else node fuel false false
      let value ← flowValue fuel .flowSequenceEnd
      return .mapping [(key, value)] {} :: (← flowItems fuel false)
    | _ =>
      let item ← node fuel false false
      return item :: (← flowItems fuel false)

/-- Reads the entries of a flow mapping, to its end. -/
def flowEntries (fuel : Nat) (first : Bool) : Reader (List (Node × Node)) :=
  match fuel with
  | 0 => failure
  | fuel + 1 => do
    unless first || (← atAny [.flowMappingEnd]) do expect .comma
    match ← peek with
    | some .flowMappingEnd => advance; return []
    | some .key =>
      advance
      let key ← nodeUnless fuel [.value, .comma, .flowMappingEnd] false false
      let value ← flowValue fuel .flowMappingEnd
      return (key, value) :: (← flowEntries fuel false)
    | _ =>
      let key ← node fuel false false
      return (key, .empty) :: (← flowEntries fuel false)

end

/-! ## Documents -/

/-- The leads of the handles that need no directive. -/
def standardHandles : List (String × List UInt8) :=
  [("!", (Tag.ofText "!").octets), ("!!", (Tag.standard "").octets)]

/-- Reads directives, in at most `fuel` steps: at most one version, which must be 1.1
or 1.2, and at most one lead for each handle. -/
def directives :
    Nat → Bool → List (String × List UInt8) → Reader (List (String × List UInt8))
  | 0, _, _ => failure
  | fuel + 1, versioned, handles => do
    match ← peek with
    | some (.version major minor) =>
      guard (!versioned && major == 1 && (minor == 1 || minor == 2))
      advance
      directives fuel true handles
    | some (.handle name lead) =>
      guard (handles.lookup name).isNone
      advance
      directives fuel versioned ((name, lead) :: handles)
    | _ => return handles

/-- The next token belongs to a document that starts or ends with a mark. -/
def atDocumentMark : Reader Bool := do
  match ← peek with
  | some (.version ..) | some (.handle ..) | some .documentStart => return true
  | _ => return false

/-- Reads the content of the document of a text, if it has one.  Directives come before
its start mark, which it needs then; behind it there are only end marks. -/
def document (fuel : Nat) : Reader (Option Node) := do
  if (← peek).isNone then return none
  let marked ← atDocumentMark
  let handles ← directives fuel false []
  modify fun r => { r with handles := handles ++ standardHandles }
  let n ←
    if !marked then node fuel true false
    else do
      expect .documentStart
      if (← peek).isNone || (← atDocumentMark) || (← atAny [.documentEnd]) then pure .empty
      else node fuel true false
  modify fun r => { r with tokens := r.tokens.dropWhile (· == .documentEnd) }
  guard (← get).tokens.isEmpty
  return some n

end Reader

end Node

end OperandReport.Yaml
