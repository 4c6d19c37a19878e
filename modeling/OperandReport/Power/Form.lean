/-!
# Forms of PowerPC operands

A form is one way in which fields are read.  Condition forms change the condition
of a branch, operand forms contribute operands; neither does the other's work.
-/

namespace OperandReport.Power

/-- Forms that change the condition of a branch. -/
inductive ConditionForm where
  /-- a predicate code and the condition register that it is about -/
  | predicate
  /-- the prediction of a predicate code -/
  | predicateHint
  /-- prediction bits of their own -/
  | hint
  deriving DecidableEq, Repr

/-- Forms that contribute operands. -/
inductive OperandForm where
  | plain
  /-- a base and an index register -/
  | indexed
  /-- a 16-bit displacement and a base -/
  | displaced
  /-- a displacement and a base, the displacement as it is -/
  | displacedExactly
  /-- a 34-bit displacement and a base -/
  | displacedFar
  /-- a 34-bit displacement from the program counter -/
  | displacedFromPc
  | unsigned (bits : Nat)
  | signed (bits : Nat)
  | zero
  | branch
  | absoluteBranch
  /-- the condition register of a predicate -/
  | predicateRegister
  | conditionField
  /-- a branch with an annotation at the next field -/
  | annotatedCall
  deriving DecidableEq, Repr

/-- The number of fields that the form covers. -/
def ConditionForm.width : ConditionForm → Nat
  | predicate | predicateHint => 2
  | hint => 1

namespace OperandForm

/-- The form is one of a memory operand. -/
def isMemory : OperandForm → Bool
  | indexed | displaced | displacedExactly | displacedFar | displacedFromPc => true
  | _ => false

/-- The number of fields that the form covers. -/
def width : OperandForm → Nat
  | predicateRegister | annotatedCall => 2
  | form => if form.isMemory then 2 else 1

end OperandForm

/-- A form at a place: the first field that it reads. -/
inductive Site where
  | condition (form : ConditionForm) (slot : Nat)
  | operand (form : OperandForm) (slot : Nat)
  deriving DecidableEq, Repr

namespace Site

/-- The first field that the site reads. -/
def slot : Site → Nat
  | condition _ i => i
  | operand _ i => i

/-- The number of fields that the site covers. -/
def width : Site → Nat
  | condition form _ => form.width
  | operand form _ => form.width

/-- The site is one of a memory operand. -/
def isMemory : Site → Bool
  | condition .. => false
  | operand form _ => form.isMemory

end Site

end OperandReport.Power
