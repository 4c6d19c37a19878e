import OperandReport.Yaml.Token

/-!
# Layout

The tokens of a text, those for indentation included.

The margin is the least column that the content of the innermost block may have.  A
block starts where a token stands at the margin or beyond it, and ends where one
stands before it.  Inside flow collections the margin is idle.

A token that may turn out to be a key is kept in mind until its line ends.  When its
colon comes, the token for the key goes in front of it, and behind the start of a
mapping if one starts there.  In a block, a token right at the column of an open block
must be a key.
-/

namespace OperandReport.Yaml

/-- A key in waiting: how many tokens come before it, and where it starts. -/
structure PendingKey where
  position : Nat
  index : Nat
  line : Nat
  column : Nat
  required : Bool
  deriving DecidableEq, Repr, Inhabited

/-- The colon of the key cannot come any more: a key ends on its line and within
1024 characters. -/
def PendingKey.isLate (key : PendingKey) (p : Place) : Bool :=
  key.line < p.line || key.index + 1024 < p.index

/-- What has been read of a text, and what may follow. -/
structure Layout where
  place : Place
  tokens : Array Token := #[]
  /-- the margin of the innermost block -/
  margin : Nat := 0
  /-- the margins of the blocks around it, from the inside out -/
  margins : List Nat := []
  /-- the key in waiting -/
  pending : Option PendingKey := none
  /-- the keys in waiting outside each open flow collection, from the inside out -/
  outer : List (Option PendingKey) := []
  /-- a key may start here, and so may a block -/
  fresh : Bool := true
  deriving Repr, Inhabited

namespace Layout

/-- A flow collection is open. -/
def inFlow (s : Layout) : Bool := !s.outer.isEmpty

/-- Adds a token and goes on behind it. -/
def push (s : Layout) (t : Token) (p : Place) : Layout := { s with tokens := s.tokens.push t, place := p }

/-- Adds a token of `n` characters. -/
def pushMark (s : Layout) (t : Token) (n : Nat := 1) : Layout := s.push t (s.place.skip n)

/-! ## Blocks -/

/-- Starts a block at a column, if there is none yet.  Its token goes to a position
among the tokens. -/
def openBlock (s : Layout) (t : Token) (column position : Nat) : Layout :=
  if s.inFlow || column < s.margin then s
  else { s with
    tokens := s.tokens.insertIdxIfInBounds position t
    margin := column + 1
    margins := s.margin :: s.margins }

/-- Ends the blocks whose margin is beyond a given one. -/
def closeBlocks (s : Layout) (margin : Nat) : Layout :=
  if s.inFlow then s
  else
    let all := s.margin :: s.margins
    let left := all.dropWhile (margin < ·)
    { s with
      tokens := s.tokens ++ Array.replicate (all.length - left.length) Token.blockEnd
      margin := left.headD 0
      margins := left.tail }

/-! ## Keys in waiting -/

/-- Gives up the keys whose colon cannot come any more. -/
def dropLate? (s : Layout) : Option Layout :=
  let late := (s.pending :: s.outer).filterMap fun key => key.filter (·.isLate s.place)
  let keep (key : Option PendingKey) : Option PendingKey := key.filter (!·.isLate s.place)
  if late.any (·.required) then none
  else some { s with pending := keep s.pending, outer := s.outer.map keep }

/-- Gives up the key in waiting. -/
def dropKey? (s : Layout) : Option Layout :=
  if s.pending.any (·.required) then none else some { s with pending := none }

/-- Keeps the next token in mind as a key, where one may start. -/
def markKey? (s : Layout) : Option Layout :=
  if !s.fresh then some s
  else do
    let s ← s.dropKey?
    let p := s.place
    let required := !s.inFlow && s.margin == p.column + 1
    return { s with pending := some ⟨s.tokens.size, p.index, p.line, p.column, required⟩ }

/-! ## Tokens -/

/-- Goes on to the next token, past blanks, comments and breaks, in at most `fuel`
steps.  A tab does not count as a blank where a block may start. -/
def skipGap : Nat → Layout → Layout
  | 0, s => s
  | fuel + 1, s =>
    let p := s.place
    let p := if p.column == 0 && p.sees byteOrderMark then p.next else p
    let p := p.skipWhile fun c => c == ' ' || (c == '\t' && (s.inFlow || !s.fresh))
    let p := if p.sees '#' then p.skipWhile (!isBreak ·) else p
    if p.seesBreak then skipGap fuel { s with place := p.takeBreak.2, fresh := s.fresh || !s.inFlow }
    else { s with place := p }

/-- A mark of a document, which ends all blocks. -/
def documentMark? (s : Layout) (t : Token) : Option Layout := do
  let s ← (s.closeBlocks 0).dropKey?
  return { s with fresh := false }.pushMark t 3

/-- A directive, which ends all blocks. -/
def directive? (s : Layout) : Option Layout := do
  let s ← (s.closeBlocks 0).dropKey?
  let (t, p) ← Token.directive? s.place
  return { s with fresh := false }.push t p

/-- The start of a flow collection, which may be a key as a whole. -/
def openFlow? (s : Layout) (t : Token) : Option Layout := do
  let s ← s.markKey?
  return { s with outer := s.pending :: s.outer, pending := none, fresh := true }.pushMark t

/-- The end of a flow collection. -/
def closeFlow? (s : Layout) (t : Token) : Option Layout := do
  let s ← s.dropKey?
  let s := { s with pending := s.outer.head?.join, outer := s.outer.tail, fresh := false }
  return s.pushMark t

/-- A comma. -/
def comma? (s : Layout) : Option Layout := do
  let s ← s.dropKey?
  return { s with fresh := true }.pushMark .comma

/-- The mark of an entry, which may start a sequence. -/
def entry? (s : Layout) : Option Layout := do
  guard (s.inFlow || s.fresh)
  let s ← (s.openBlock .blockSequence s.place.column s.tokens.size).dropKey?
  return { s with fresh := true }.pushMark .entry

/-- The mark of a key, which may start a mapping. -/
def key? (s : Layout) : Option Layout := do
  guard (s.inFlow || s.fresh)
  let s ← (s.openBlock .blockMapping s.place.column s.tokens.size).dropKey?
  return { s with fresh := !s.inFlow }.pushMark .key

/-- The colon of a value.  It turns the token in waiting into a key, and no other key
may follow it on the line; without one it follows a key mark, or an empty key. -/
def value? (s : Layout) : Option Layout :=
  match s.pending with
  | some key =>
    let s := { s with tokens := s.tokens.insertIdxIfInBounds key.position .key, pending := none }
    let s := s.openBlock .blockMapping key.column key.position
    some ({ s with fresh := false }.pushMark .value)
  | none => do
    guard (s.inFlow || s.fresh)
    let s := s.openBlock .blockMapping s.place.column s.tokens.size
    return { s with fresh := !s.inFlow }.pushMark .value

/-- A token that may be a key or start one, with what `read` reads; no other key may
follow it. -/
def content? (s : Layout) (read : Place → Option (Token × Place)) : Option Layout := do
  let s ← s.markKey?
  let (t, p) ← read s.place
  return { s with fresh := false }.push t p

/-- A plain scalar.  If the gap behind it spans lines, a key may follow. -/
def plain? (s : Layout) : Option Layout := do
  let s ← s.markKey?
  let (text, broken, p) ← Scalar.plain? s.margin s.inFlow s.place
  return { s with fresh := broken }.push (.scalar text .plain) p

/-- A block scalar, which is no key. -/
def block? (s : Layout) (style : Style) : Option Layout := do
  let s ← s.dropKey?
  let (text, p) ← Scalar.block? s.margin (style == .folded) s.place.next
  return { s with fresh := true }.push (.scalar text style) p

/-- The character may not start a plain scalar, save where it touches a word. -/
def isIndicator (c : Char) : Bool := "-?:,[]\x7b\x7d#&*!|>'\"%@\x60".toList.contains c

/-- A plain scalar may start at this place. -/
def startsPlain (s : Layout) : Bool :=
  match s.place.rest with
  | [] => false
  | c :: rest =>
    (!isIndicator c && !isBlank c && !isBreak c) || (c == '-' && !rest.head?.any isBlank) ||
      (!s.inFlow && (c == '?' || c == ':') && !endsWord rest)

/-- Reads the next token, which starts at this place with the character `c`. -/
def token? (s : Layout) (c : Char) (rest : List Char) : Option Layout :=
  let p := s.place
  let loose := s.inFlow || endsWord rest
  if p.column == 0 && c == '%' then s.directive?
  else if p.isMark '-' then s.documentMark? .documentStart
  else if p.isMark '.' then s.documentMark? .documentEnd
  else if c == '[' then s.openFlow? .flowSequence
  else if c == '{' then s.openFlow? .flowMapping
  else if c == ']' then s.closeFlow? .flowSequenceEnd
  else if c == '}' then s.closeFlow? .flowMappingEnd
  else if c == ',' then s.comma?
  else if c == '-' && endsWord rest then s.entry?
  else if c == '?' && loose then s.key?
  else if c == ':' && loose then s.value?
  else if c == '*' then s.content? fun p => (Token.name? p).map fun (n, p) => (.aliasOf n, p)
  else if c == '&' then s.content? fun p => (Token.name? p).map fun (n, p) => (.anchor n, p)
  else if c == '!' then s.content? (Token.tag? s.inFlow)
  else if c == '|' && !s.inFlow then s.block? .literal
  else if c == '>' && !s.inFlow then s.block? .folded
  else if c == '\'' then
    s.content? fun p => (Scalar.quoted? c p).map fun (t, p) => (.scalar t .single, p)
  else if c == '"' then
    s.content? fun p => (Scalar.quoted? c p).map fun (t, p) => (.scalar t .double, p)
  else if s.startsPlain then s.plain?
  else none

/-- Reads all tokens, in at most `fuel` steps. -/
def tokens? : Nat → Layout → Option (List Token)
  | 0, _ => none
  | fuel + 1, s => do
    let s ← (s.skipGap (s.place.rest.length + 1)).dropLate?
    let s := s.closeBlocks (s.place.column + 1)
    match s.place.rest with
    | [] => return (← (s.closeBlocks 0).dropKey?).tokens.toList
    | c :: rest => (← s.token? c rest).tokens? fuel

end Layout

/-- The tokens of a text; there are none if it is malformed. -/
def Token.ofText? (text : String) : Option (List Token) :=
  let chars := text.toList
  if chars.all isAllowed then Layout.tokens? (chars.length + 1) ⟨⟨chars, 0, 0, 0⟩, #[], 0, [], none, [], true⟩
  else none

end OperandReport.Yaml
