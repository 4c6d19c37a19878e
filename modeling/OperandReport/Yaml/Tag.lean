import OperandReport.Text.Numeral
import OperandReport.Yaml.Place

/-!
# Tags

A tag names the type of a node.  It is a row of octets: a percent sign with two digits
behind it writes an octet that may not stand for itself.  The octets written so have the
shape of UTF-8, a leading octet and as many more as it asks for, yet not every such row
is a text.  No tag holds a zero octet: it ends before the first one.

A local tag starts with an exclamation mark and belongs to the text itself; all others
belong to a standard.

## Main results

* `localName?_ofText`: a local tag that is written as a text has the rest of it as its name.
-/

namespace OperandReport.Yaml

/-- A tag of a node. -/
structure Tag where
  octets : List UInt8
  deriving DecidableEq, Repr, Inhabited

namespace Tag

/-- The octets of a text. -/
def octetsOf (text : List Char) : List UInt8 := text.flatMap String.utf8EncodeChar

/-- The tag that is written as a text. -/
def ofText (text : String) : Tag := ⟨octetsOf text.toList⟩

/-- The tag of a standard scalar type. -/
def standard (type : String) : Tag := ofText ("tag:yaml.org,2002:" ++ type)

/-- The octets up to the first zero. -/
def untilZero (octets : List UInt8) : List UInt8 := octets.takeWhile (· != 0)

/-- The tag belongs to the text itself and not to a standard. -/
def isLocal (t : Tag) : Bool := t.octets.head? == some 0x21

/-- The name in a local tag, if it is a text. -/
def localName? (t : Tag) : Option String :=
  if t.isLocal then String.fromUTF8? t.octets.tail.toByteArray else none

/-! ## Reading -/

/-- Reads `n` octets that are each written as a percent sign and two digits. -/
def escapes? : Nat → List Char → Option (List UInt8)
  | 0, _ => some []
  | n + 1, '%' :: a :: b :: rest => do
    let octet ← Numeral.read? 16 [a, b]
    let octets ← escapes? n rest
    return octet.toUInt8 :: octets
  | _ + 1, _ => none

/-- The number of octets in the row that starts with a given octet. -/
def widthOf? (octet : UInt8) : Option Nat :=
  if octet < 0x80 then some 1
  else if octet < 0xc0 then none
  else if octet < 0xe0 then some 2
  else if octet < 0xf0 then some 3
  else if octet < 0xf8 then some 4
  else none

/-- The octet goes on a row that another one leads. -/
def isTrailing (octet : UInt8) : Bool := 0x80 ≤ octet && octet < 0xc0

/-- The row of octets that a text starts with, each written as a percent sign and two
digits. -/
def escaped? (rest : List Char) : Option (List UInt8) := do
  let first ← escapes? 1 rest
  let width ← widthOf? (first.headD 0)
  let octets ← escapes? width rest
  guard (octets.tail.all isTrailing)
  return octets

/-- The character may stand in a tag; `verbatim` admits the marks of flow collections. -/
def isTagChar (verbatim : Bool) (c : Char) : Bool :=
  isWord c || ";/?:@&=+$.!~*'()%".toList.contains c || (verbatim && ",[]".toList.contains c)

/-- Reads the octets of a tag, in at most `fuel` steps. -/
def read? (verbatim : Bool) : Nat → Place → Option (List UInt8 × Place)
  | 0, p => some ([], p)
  | fuel + 1, p =>
    match p.rest with
    | [] => some ([], p)
    | c :: _ =>
      if !isTagChar verbatim c then some ([], p)
      else do
        let (row, n) ←
          if c == '%' then (escaped? p.rest).map fun row => (row, 3 * row.length)
          else some (octetsOf [c], 1)
        let (octets, p) ← read? verbatim fuel (p.skip n)
        return (row ++ octets, p)

/-- Reads the octets of a tag as far as they go. -/
def run? (verbatim : Bool) (p : Place) : Option (List UInt8 × Place) :=
  read? verbatim (p.rest.length + 1) p

/-- Reads a handle: an exclamation mark, and a word with a second mark behind it if
there is one. -/
def handleRun (p : Place) : List Char × Place :=
  let (word, p) := p.next.span isWord
  if p.sees '!' then ('!' :: word ++ ['!'], p.next) else ('!' :: word, p)

/-! ## Tags of texts -/

theorem octetsOf_cons (c : Char) (text : List Char) :
    octetsOf (c :: text) = String.utf8EncodeChar c ++ octetsOf text := by
  simp [octetsOf]

theorem toByteArray_octetsOf (text : String) :
    (octetsOf text.toList).toByteArray = text.toByteArray := by
  rw [octetsOf, ← List.utf8Encode, ← String.toByteArray_ofList, String.ofList_toList]

theorem octets_ofText_mark (name : String) :
    (ofText ("!" ++ name)).octets = 0x21 :: octetsOf name.toList := by
  have h : ("!" ++ name).toList = '!' :: name.toList := by simp
  rw [ofText, h, octetsOf_cons]
  rfl

theorem fromUTF8?_toByteArray (text : String) : String.fromUTF8? text.toByteArray = some text := by
  simp [String.fromUTF8?, String.fromUTF8, text.isValidUTF8]

theorem localName?_ofText (name : String) : localName? (ofText ("!" ++ name)) = some name := by
  have h := octets_ofText_mark name
  rw [localName?, isLocal, h]
  simp [toByteArray_octetsOf, fromUTF8?_toByteArray]

end Tag

end OperandReport.Yaml
