/-!
# Places in a text

A place holds the rest of a text and counts what lies before it: characters, lines,
and the characters of the current line.  Layout depends on lines and columns, so
every reader of the text moves from place to place.

A carriage return with a line feed behind it is one line break.
-/

namespace OperandReport.Yaml

/-- The character ends a line. -/
def isBreak (c : Char) : Bool :=
  c == '\n' || c == '\r' || c == '\u0085' || c == '\u2028' || c == '\u2029'

/-- The character is a space or a tab. -/
def isBlank (c : Char) : Bool := c == ' ' || c == '\t'

/-- The character may stand in the name of an anchor, a handle or a directive. -/
def isWord (c : Char) : Bool := c.isAlphanum || c == '_' || c == '-'

/-- The byte order mark. -/
def byteOrderMark : Char := '\ufeff'

/-- The character may stand in a text at all; most control characters may not. -/
def isAllowed (c : Char) : Bool :=
  c == '\t' || c == '\n' || c == '\r' || (' ' ≤ c && c ≤ '~') || c == '\u0085' ||
    ('\u00a0' ≤ c && c ≤ '\ufffd') || '\uffff' < c

/-- No word goes on with these characters: a blank, a break or the end comes first. -/
def endsWord : List Char → Bool
  | [] => true
  | c :: _ => isBlank c || isBreak c

/-- A place in a text. -/
structure Place where
  rest : List Char
  index : Nat := 0
  line : Nat := 0
  column : Nat := 0
  deriving DecidableEq, Repr, Inhabited

namespace Place

/-- The next character is `c`. -/
def sees (p : Place) (c : Char) : Bool := p.rest.head? == some c

/-- The next character is a break. -/
def seesBreak (p : Place) : Bool := p.rest.head?.any isBreak

/-- The next character is a blank. -/
def seesBlank (p : Place) : Bool := p.rest.head?.any isBlank

/-- The place behind the next character. -/
def next (p : Place) : Place :=
  match p.rest with
  | [] => p
  | c :: rest =>
    if isBreak c && !(c == '\r' && rest.head? == some '\n') then
      ⟨rest, p.index + 1, p.line + 1, 0⟩
    else ⟨rest, p.index + 1, p.line, p.column + 1⟩

/-- The place `n` characters on. -/
def skip (p : Place) : Nat → Place
  | 0 => p
  | n + 1 => p.next.skip n

/-- The longest run of characters that satisfy `f`, and the place behind it. -/
def span (p : Place) (f : Char → Bool) : List Char × Place :=
  let run := p.rest.takeWhile f
  (run, p.skip run.length)

/-- The place behind a run of characters that satisfy `f`. -/
def skipWhile (p : Place) (f : Char → Bool) : Place := (p.span f).2

/-- A line break as content, and the place behind it: a line feed stands for every
break but the two separators, which stand for themselves. -/
def takeBreak (p : Place) : List Char × Place :=
  match p.rest with
  | '\r' :: '\n' :: _ => (['\n'], p.skip 2)
  | c :: _ =>
    if c == '\u2028' || c == '\u2029' then ([c], p.next)
    else if isBreak c then (['\n'], p.next)
    else ([], p)
  | [] => ([], p)

/-- A mark of three characters `c` stands alone at the start of the line. -/
def isMark (p : Place) (c : Char) : Bool :=
  p.column == 0 && p.rest.take 3 == [c, c, c] && endsWord (p.rest.drop 3)

/-- A mark that begins or ends a document stands here. -/
def isDocumentMark (p : Place) : Bool := p.isMark '-' || p.isMark '.'

/-- The end of a line that may hold blanks and a comment before its break. -/
def endOfLine? (p : Place) : Option Place :=
  let p := p.skipWhile isBlank
  let p := if p.sees '#' then p.skipWhile (!isBreak ·) else p
  if p.rest.isEmpty || p.seesBreak then some p.takeBreak.2 else none

theorem rest_next (p : Place) : p.next.rest = p.rest.tail := by
  unfold next
  split
  · simp_all
  · split <;> simp_all

theorem rest_skip (p : Place) (n : Nat) : (p.skip n).rest = p.rest.drop n := by
  induction n generalizing p with
  | zero => rfl
  | succ n ih => rw [skip, ih, rest_next, List.drop_tail]

end Place

end OperandReport.Yaml
