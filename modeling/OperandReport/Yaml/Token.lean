import OperandReport.Yaml.Scalar
import OperandReport.Yaml.Tag

/-!
# Tokens

A text is a row of tokens.  Some are written out; others stand for indentation: the
start and the end of a block collection, and the start of a key that only its colon
gives away.

This module has the tokens and reads those that are words behind a mark: names of
anchors, tags and directives.
-/

namespace OperandReport.Yaml

/-- A token. -/
inductive Token where
  | version (major minor : Nat)
  | handle (name : String) (lead : List UInt8)
  | documentStart
  | documentEnd
  | blockSequence
  | blockMapping
  | blockEnd
  | flowSequence
  | flowSequenceEnd
  | flowMapping
  | flowMappingEnd
  | entry
  | comma
  | key
  | value
  | aliasOf (name : String)
  | anchor (name : String)
  | tag (handle : String) (suffix : List UInt8)
  | scalar (text : String) (style : Style)
  deriving DecidableEq, Repr, Inhabited

namespace Token

/-! ## Anchors and aliases -/

/-- Reads the name of an anchor behind its mark. -/
def name? (p : Place) : Option (String × Place) :=
  let (name, p) := p.next.span isWord
  let closed := endsWord p.rest || p.rest.head?.any ("?:,]\x7d%@\x60".toList.contains ·)
  if name.isEmpty || !closed then none else some (String.ofList name, p)

/-! ## Tags -/

/-- Reads a tag.  In angle brackets it is verbatim and has no handle; a lone mark has
none either. -/
def tag? (inFlow : Bool) (p : Place) : Option (Token × Place) := do
  let (token, p) ←
    if p.next.sees '<' then do
      let (octets, p) ← Tag.run? true (p.skip 2)
      guard (!octets.isEmpty && p.sees '>')
      pure (tag "" (Tag.untilZero octets), p.next)
    else
      let (start, q) := Tag.handleRun p
      if start.length > 1 && start.getLast? == some '!' then do
        let (octets, q) ← Tag.run? false q
        guard !octets.isEmpty
        pure (tag (String.ofList start) (Tag.untilZero octets), q)
      else do
        let (octets, q) ← Tag.run? false q
        let suffix := Tag.untilZero (Tag.octetsOf (start.drop 1) ++ octets)
        pure (if suffix.isEmpty then tag "" (Tag.octetsOf ['!']) else tag "!" suffix, q)
  guard (endsWord p.rest || (inFlow && p.sees ','))
  return (token, p)

/-! ## Directives -/

/-- Reads a number of at most nine digits. -/
def number? (p : Place) : Option (Nat × Place) := do
  let (digits, p) := p.span (·.isDigit)
  guard (digits.length ≤ 9)
  return (← Numeral.read? 10 digits, p)

/-- Reads a directive, to the end of its line. -/
def directive? (p : Place) : Option (Token × Place) := do
  let (word, p) := p.next.span isWord
  guard (endsWord p.rest)
  let p := p.skipWhile isBlank
  let (token, p) ←
    if word == "YAML".toList then do
      let (major, p) ← number? p
      guard (p.sees '.')
      let (minor, p) ← number? p.next
      pure (version major minor, p)
    else if word == "TAG".toList then do
      guard (p.sees '!')
      let (name, p) := Tag.handleRun p
      guard (name == ['!'] || name.length > 1 && name.getLast? == some '!')
      guard p.seesBlank
      let (lead, p) ← Tag.run? true (p.skipWhile isBlank)
      guard (!lead.isEmpty && endsWord p.rest)
      pure (handle (String.ofList name) (Tag.untilZero lead), p)
    else none
  return (token, ← p.endOfLine?)

end Token

end OperandReport.Yaml
