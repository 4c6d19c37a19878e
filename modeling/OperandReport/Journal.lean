/-!
# Journal lines

What a run has to say besides its result: a line of text with a level.  A line
of the highest level also ends the run.
-/

namespace OperandReport

/-- How grave a line is. -/
inductive Level where
  | trace
  | notify
  | warning
  | error
  deriving DecidableEq, Repr, Inhabited

/-- A line of this level ends the run that writes it. -/
def Level.halts : Level → Bool
  | .error => true
  | _ => false

/-- One line of the journal. -/
structure Line where
  text : String := ""
  level : Level := .trace
  deriving DecidableEq, Repr, Inhabited

end OperandReport
