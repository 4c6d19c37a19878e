import OperandReport.Journal
import OperandReport.Session
import OperandReport.Settings.ModeName
import OperandReport.Yaml.Document

/-!
# Settings

The settings of a session are kept in a YAML text: a mapping with the fields `arch`,
`mode` and `detail`.  A field that is left out has its default, and so has every field
of a text without content.  Fields of other names are ignored.

Settings that cannot be read give the defaults and a line in the journal.
-/

namespace OperandReport

/-- The choices that a session is started from. -/
structure Settings where
  architecture : Architecture := .arm
  mode : Mode := {}
  detail : Bool := true
  deriving DecidableEq, Repr, Inhabited

/-- The session that the settings ask for. -/
def Settings.session (s : Settings) : Session := ⟨s.architecture, s.mode, s.detail⟩

namespace Settings
open Yaml

/-! ## Values of fields -/

/-- The architecture that a name stands for. -/
def architectureOfName? : String → Option Architecture
  | "arm" => some .arm
  | "ppc" | "powerpc" => some .power
  | _ => none

/-- The text is a null, written or left out. -/
def isNull (text : String) : Bool := ["", "~", "null", "Null", "NULL"].contains text

/-- The name in a local tag in front of a node. -/
def localName? (p : Properties) : Option String := p.tag.bind Tag.localName?

/-- The architecture of a field: a name, or a local tag of that name on a null. -/
def architecture? : Node → Option Architecture
  | .scalar text style p =>
    match localName? p with
    | none => architectureOfName? text
    | some name => if style = .plain ∧ isNull text then architectureOfName? name else none
  | _ => none

/-- The truth value of a text. -/
def truth? : String → Option Bool
  | "true" | "True" | "TRUE" => some true
  | "false" | "False" | "FALSE" => some false
  | _ => none

/-- The truth value of a field.  Quotes make it a text, which is none. -/
def detail? : Node → Option Bool
  | .scalar text .plain _ => truth? text
  | .scalar text .literal p => if p.tag = some (.standard "bool") then truth? text else none
  | _ => none

/-- The unsigned number that a text stands for: decimal without leading zeros, or with
the mark of another base. -/
def number? (text : String) : Option Nat :=
  let digits := if text.startsWith "+" then text.toList.drop 1 else text.toList
  match digits with
  | '0' :: 'x' :: rest => Numeral.read? 16 rest
  | '0' :: 'o' :: rest => Numeral.read? 8 rest
  | '0' :: 'b' :: rest => Numeral.read? 2 rest
  | '0' :: _ :: _ => none
  | _ => Numeral.read? 10 digits

/-- The name in a plain scalar.  A number is named by its decimal digits. -/
def plainName (text : String) : String := (number? text).elim text toString

/-- The name in a mode field that is a single scalar.  A scalar with a named local tag, or
with the tag of another standard type, is no name. -/
def modeName? (text : String) (style : Style) (p : Properties) : Option String :=
  if (localName? p).isSome then none
  else if p.tag.all Tag.isLocal then some (if style = .plain then plainName text else text)
  else if p.tag = some (.standard "int") then (number? text).map toString
  else if ["bool", "float", "null"].any fun type => p.tag = some (.standard type) then none
  else some text

/-- The text of a scalar, whatever its style. -/
def text? : Node → Option String
  | .scalar text _ _ => some text
  | _ => none

/-- The mode of a field: one name, or a list of names. -/
def mode? (d : Document) : Node → Option Mode
  | .scalar text style p => (modeName? text style p).bind Mode.ofName?
  | .sequence items p =>
    if (localName? p).isSome then none
    else (items.mapM fun item => text? (d.target item)).bind Mode.ofNames?
  | _ => none

/-! ## Texts -/

/-- The fields met so far. -/
structure Fields where
  architecture : Option Architecture := none
  mode : Option Mode := none
  detail : Option Bool := none
  deriving DecidableEq, Repr, Inhabited

namespace Fields

/-- Adds a field of a document.  No field may be given twice. -/
def add? (f : Fields) (d : Document) (name : String) (value : Node) : Option Fields :=
  match name with
  | "arch" => do
    guard f.architecture.isNone
    return { f with architecture := ← architecture? (d.target value) }
  | "mode" => do
    guard f.mode.isNone
    return { f with mode := ← mode? d (d.target value) }
  | "detail" => do
    guard f.detail.isNone
    return { f with detail := ← detail? (d.target value) }
  | _ => some f

/-- The settings, with the default for a field that is not given. -/
def settings (f : Fields) : Settings where
  architecture := f.architecture.getD .arm
  mode := f.mode.getD {}
  detail := f.detail.getD true

end Fields

/-- The settings in a document. -/
def ofDocument? (d : Document) : Option Settings :=
  match d.root with
  | .mapping entries _ =>
    let fields? : Option Fields := entries.foldlM (fun f (key, value) => do
      f.add? d (← text? (d.target key)) value) {}
    fields?.map Fields.settings
  | .scalar "" .plain _ => some {}
  | _ => none

/-- The character is white space. -/
def isSpace (c : Char) : Bool :=
  ('\t' ≤ c && c ≤ '\r') || c == ' ' || c == '\u0085' || c == '\u00a0' || c == '\u1680' ||
    ('\u2000' ≤ c && c ≤ '\u200a') || c == '\u2028' || c == '\u2029' || c == '\u202f' ||
    c == '\u205f' || c == '\u3000'

/-- The settings in a text. -/
def ofText? (text : String) : Option Settings :=
  if text.toList.all isSpace then some {}
  else do
    match ← Document.ofText? text with
    | none => return {}
    | some d => ofDocument? d

/-- The settings in the content of a file, which may be missing, and the levels of the
lines that go to the journal.  The defaults stand in for settings that cannot be read. -/
def load (content : Option ByteArray) : Settings × List Level :=
  match content.bind String.fromUTF8? with
  | none => ({}, [.notify])
  | some text =>
    match ofText? text with
    | none => ({}, [.warning])
    | some settings => (settings, [])

end Settings

end OperandReport
