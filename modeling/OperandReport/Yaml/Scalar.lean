import OperandReport.Text.Numeral
import OperandReport.Yaml.Place

/-!
# Scalars

A scalar is a run of text in one of five styles: plain, in single or double quotes,
or as a block of lines that are kept or folded.

A gap is what lies between two words of a flowing scalar.  Within a line its blanks
count as written.  Across lines the blanks go: one break is a space, and of more
breaks the first one goes.
-/

namespace OperandReport.Yaml

/-- How a scalar is written. -/
inductive Style where
  | plain
  | single
  | double
  | literal
  | folded
  deriving DecidableEq, Repr, Inhabited

/-! ## Gaps -/

/-- The blanks and the breaks between two words; there are no blanks once there is a
break. -/
structure Gap where
  blanks : List Char := []
  breaks : List Char := []
  deriving DecidableEq, Repr, Inhabited

namespace Gap

/-- The gap spans lines. -/
def isBroken (g : Gap) : Bool := !g.breaks.isEmpty

/-- The text that a gap stands for. -/
def text (g : Gap) : List Char :=
  match g.breaks with
  | [] => g.blanks
  | ['\n'] => [' ']
  | '\n' :: more => more
  | separators => separators

/-- Extends a gap as far as it goes, in at most `fuel` steps.  A tab may not stand
for indentation below the margin. -/
def extend (margin : Nat) : Nat → Gap → Place → Option (Gap × Place)
  | 0, g, p => some (g, p)
  | fuel + 1, g, p =>
    if p.seesBreak then
      extend margin fuel ⟨[], g.breaks ++ p.takeBreak.1⟩ p.takeBreak.2
    else if p.seesBlank then
      if !g.isBroken then extend margin fuel { g with blanks := g.blanks ++ p.rest.take 1 } p.next
      else if p.sees '\t' && p.column < margin then none
      else extend margin fuel g p.next
    else some (g, p)

end Gap

/-- The gap at a place, which may be empty. -/
def Place.gap? (p : Place) (margin : Nat := 0) : Option (Gap × Place) :=
  Gap.extend margin (p.rest.length + 1) {} p

namespace Scalar

/-! ## Plain scalars -/

/-- The characters that mark the parts of a flow collection. -/
def isFlowMark (c : Char) : Bool := c == ',' || c == '[' || c == ']' || c == '{' || c == '}'

/-- The word of a plain scalar that a text starts with.  It ends before a colon that
ends a word and, inside a flow collection, before a mark of the collection.  There a
colon may not touch a mark. -/
def word? (inFlow : Bool) : List Char → Option (List Char)
  | [] => some []
  | c :: rest =>
    if endsWord (c :: rest) || (c == ':' && endsWord rest) || (inFlow && isFlowMark c) then some []
    else if inFlow && c == ':' && rest.head?.any (fun d => isFlowMark d || d == '?') then none
    else (word? inFlow rest).map (c :: ·)

/-- Extends a plain scalar by further words, in at most `fuel` steps.  It ends at a
comment, at a mark of a document, and where a line of a block falls below the margin. -/
def extendPlain (margin : Nat) (inFlow : Bool) :
    Nat → List Char → Gap → Place → Option (List Char × Gap × Place)
  | 0, text, g, p => some (text, g, p)
  | fuel + 1, text, g, p =>
    if p.isDocumentMark || p.sees '#' then some (text, g, p)
    else do
      let word ← word? inFlow p.rest
      if word.isEmpty then return (text, g, p)
      let text := text ++ g.text ++ word
      let (g, p) ← (p.skip word.length).gap? margin
      if g = {} || (!inFlow && p.column < margin) then return (text, g, p)
      extendPlain margin inFlow fuel text g p

/-- Reads a plain scalar; says also whether the gap behind it spans lines. -/
def plain? (margin : Nat) (inFlow : Bool) (p : Place) : Option (String × Bool × Place) := do
  let (text, g, p) ← extendPlain margin inFlow (p.rest.length + 1) [] {} p
  return (String.ofList text, g.isBroken, p)

/-! ## Quoted scalars -/

/-- The character whose code is written with `width` hexadecimal digits. -/
def coded? (width : Nat) (rest : List Char) : Option Char := do
  let digits := rest.take width
  guard (digits.length = width)
  let code ← Numeral.read? 16 digits
  if code.isValidChar then some (Char.ofNat code) else none

/-- The character that an escape stands for, and the length of the escape.  The
backslash is not part of `rest`. -/
def escape? : List Char → Option (Char × Nat)
  | 'x' :: rest => (coded? 2 rest).map (·, 3)
  | 'u' :: rest => (coded? 4 rest).map (·, 5)
  | 'U' :: rest => (coded? 8 rest).map (·, 9)
  | c :: _ =>
    let meaning : Option Char :=
      match c with
      | '0' => some '\x00'
      | 'a' => some '\x07'
      | 'b' => some '\x08'
      | 't' | '\t' => some '\t'
      | 'n' => some '\n'
      | 'v' => some '\x0b'
      | 'f' => some '\x0c'
      | 'r' => some '\r'
      | 'e' => some '\x1b'
      | ' ' | '"' | '/' | '\\' => some c
      | 'N' => some '\u0085'
      | '_' => some '\u00a0'
      | 'L' => some '\u2028'
      | 'P' => some '\u2029'
      | _ => none
    meaning.map (·, 1)
  | [] => none

/-- Reads on inside quotes, in at most `fuel` steps.  In single quotes a doubled quote
stands for one; in double quotes a backslash starts an escape, and an escaped break
joins two lines without a space. -/
def extendQuoted (quote : Char) : Nat → List Char → Place → Option (List Char × Place)
  | 0, _, _ => none
  | fuel + 1, text, p =>
    if p.isDocumentMark then none
    else if p.seesBlank || p.seesBreak then do
      let (g, p) ← p.gap?
      extendQuoted quote fuel (text ++ g.text) p
    else
      match p.rest with
      | [] => none
      | c :: rest =>
        if c == quote then
          if quote == '\'' && rest.head? == some '\'' then
            extendQuoted quote fuel (text ++ ['\'']) (p.skip 2)
          else some (text, p.next)
        else if quote == '"' && c == '\\' then
          if p.next.seesBreak then do
            let (g, p) ← p.next.takeBreak.2.gap?
            extendQuoted quote fuel (text ++ g.breaks) p
          else do
            let (c, n) ← escape? rest
            extendQuoted quote fuel (text ++ [c]) (p.skip (n + 1))
        else extendQuoted quote fuel (text ++ [c]) p.next

/-- Reads a scalar between quotes, from the first quote on. -/
def quoted? (quote : Char) (p : Place) : Option (String × Place) := do
  let (text, p) ← extendQuoted quote (p.rest.length + 1) [] p.next
  return (String.ofList text, p)

/-! ## Block scalars -/

/-- What becomes of the breaks at the end of a block scalar. -/
inductive Chomping where
  | strip
  | clip
  | keep
  deriving DecidableEq, Repr, Inhabited

/-- The header of a block scalar: an indentation and a chomping mark, each at most
once and in either order. -/
def header? (p : Place) : Option (Option Nat × Chomping × Place) :=
  let chomping (p : Place) : Chomping × Place :=
    if p.sees '+' then (.keep, p.next) else if p.sees '-' then (.strip, p.next) else (.clip, p)
  let indentation (p : Place) : Option (Option Nat × Place) :=
    match p.rest.head?.bind (Numeral.digit? 10) with
    | some 0 => none
    | some n => some (some n, p.next)
    | none => some (none, p)
  if p.sees '+' || p.sees '-' then do
    let (c, p) := chomping p
    let (n, p) ← indentation p
    return (n, c, p)
  else do
    let (n, p) ← indentation p
    if n.isNone then return (none, .clip, p)
    let (c, p) := chomping p
    return (n, c, p)

/-- Reads the empty lines before a line of content, in at most `fuel` steps: the
deepest column met, their breaks, and the place where the content may start.  Without
a fixed indentation all spaces count as indentation; a tab never does. -/
def emptyLines? (indent : Option Nat) :
    Nat → Nat → List Char → Place → Option (Nat × List Char × Place)
  | 0, deepest, breaks, p => some (deepest, breaks, p)
  | fuel + 1, deepest, breaks, p =>
    let spaces := (p.rest.takeWhile (· == ' ')).length
    let p := p.skip (indent.elim spaces fun n => min spaces (n - p.column))
    let deepest := max deepest p.column
    if p.sees '\t' && indent.all (p.column < ·) then none
    else if p.seesBreak then
      emptyLines? indent fuel deepest (breaks ++ p.takeBreak.1) p.takeBreak.2
    else some (deepest, breaks, p)

/-- Reads the lines of a block at column `indent`, in at most `fuel` steps.  `last` is
the break of the line before and `breaks` are those of the empty lines since then.
In a folded block two lines that do not start with a blank are joined like words. -/
def blockLines? (folded : Bool) (chomping : Chomping) (indent : Nat) :
    Nat → List Char → List Char → Bool → Place → Option (List Char × Place)
  | 0, _, _, _, _ => none
  | fuel + 1, last, breaks, afterBlank, p =>
    if p.column = indent && !p.rest.isEmpty then do
      let joined := folded && last == ['\n'] && !afterBlank && !p.seesBlank
      let lead := if joined then (if breaks.isEmpty then [' '] else breaks) else last ++ breaks
      let (line, q) := p.span (!isBreak ·)
      let (last, q) := q.takeBreak
      let (_, breaks, q) ← emptyLines? (some indent) (q.rest.length + 1) 0 [] q
      let (text, q) ← blockLines? folded chomping indent fuel last breaks p.seesBlank q
      return (lead ++ line ++ text, q)
    else
      match chomping with
      | .strip => some ([], p)
      | .clip => some (last, p)
      | .keep => some (last ++ breaks, p)

/-- Reads a block scalar from its header on.  Its indentation is the one that the
header asks for, counted from the block around it, or that of its first line. -/
def block? (margin : Nat) (folded : Bool) (p : Place) : Option (String × Place) := do
  let (wanted, chomping, p) ← header? p
  let p ← p.endOfLine?
  let indent := wanted.map (margin - 1 + ·)
  let (deepest, breaks, p) ← emptyLines? indent (p.rest.length + 1) 0 [] p
  let indent := indent.getD (max (max deepest margin) 1)
  let (text, p) ← blockLines? folded chomping indent (p.rest.length + 1) [] breaks false p
  return (String.ofList text, p)

end Scalar

end OperandReport.Yaml
