/-!
# Forms of ARM operands

A form is one way in which fields are read.  Forms come in two sorts that never
meddle with each other: an effect form changes what the instruction does besides
its operands (condition, flags, barriers, masks), an operand form contributes
operands.

A form reads a fixed number of neighbouring fields, its `width`; the register
list is the one that reads on to the last field.
-/

namespace OperandReport.Arm

/-- Forms that change the effects of an instruction. -/
inductive EffectForm where
  /-- the status register, if the flags are set -/
  | flagSetter
  | predicate
  | mandatoryPredicate
  | restrictedPredicate
  | vectorPredicate
  | interruptMode
  | interruptMask
  | memoryBarrier
  | instructionBarrier
  | traceBarrier
  /-- the mask of a block of predicated instructions -/
  | blockMask
  /-- the mask of a block of predicated vector instructions -/
  | vectorBlockMask
  deriving DecidableEq, Repr

/-- The shapes of a list of vector registers. -/
inductive VectorShape where
  | one
  | two
  | three
  | four
  | twoSpaced
  | threeSpaced
  | fourSpaced
  deriving DecidableEq, Repr

/-- The steps from the first register of a run to each of its registers; the other
shapes are no runs. -/
def VectorShape.steps : VectorShape → List Nat
  | one | two | twoSpaced => []
  | three => [0, 1, 2]
  | four => [0, 1, 2, 3]
  | threeSpaced => [0, 2, 4]
  | fourSpaced => [0, 2, 4, 6]

/-- Forms that contribute operands.  Where a form says `showZero`, the assembler
text shows a zero offset, and the form writes one down. -/
inductive OperandForm where
  | plain
  /-- a fixed shift of the operand before, by operation code and amount -/
  | fixedShift (code amount : Nat)
  /-- a register shifted by a register -/
  | registerShifted
  /-- a register shifted by a constant -/
  | constantShifted
  | wideConstantShifted
  | rotatedImmediate
  | timesFour
  /-- a shift distance, where zero means thirty-two -/
  | shiftDistance
  | bitfield
  | coprocessor
  | coprocessorRegister
  | registerList
  | corePair
  | floatImmediate
  | vectorIndex
  | lane
  | vectorImmediate
  | vectorList (shape : VectorShape) (allLanes : Bool)
  | quadList (count : Nat)
  /-- a rotation in steps of `angle` from `start` -/
  | complexRotation (angle start : Nat)
  /-- a base register alone -/
  | baseOnly
  | coprocessorOption
  | postOffset
  | postWordOffset
  | postRegister
  /-- an offset from the program counter -/
  | literal
  /-- a base with an unsigned offset in units of `scale` -/
  | scaledOffset (scale : Nat)
  | stackOffset
  | indexed
  | mode2
  | mode2Offset
  | mode3 (showZero : Bool)
  | mode3Offset
  | mode5 (showZero : Bool)
  | mode5Half (showZero : Bool)
  | mode6
  | mode6Offset
  | signedOffset (showZero : Bool)
  | shortOffset (showZero : Bool)
  | shortWordOffset (showZero : Bool)
  | shortPostOffset
  | shortPostWordOffset
  /-- a base with an unsigned offset in words -/
  | exclusiveOffset
  | shiftedIndex
  | tableByte
  | tableHalf
  /-- a base with a vector of offsets -/
  | vectorOffsets (shift : Nat)
  | label (scale : Nat)
  | bankedRegister
  | statusMask
  | packLeft
  | packRight
  | plusOne
  | endianness
  | saturation
  | saturationShift
  | byteRotation
  | fractionBits (size : Nat)
  deriving DecidableEq, Repr

namespace EffectForm

/-- The number of fields that the form covers. -/
def width : EffectForm → Nat
  | predicate => 2
  | _ => 1

end EffectForm

namespace OperandForm

/-- The number of fields that the form covers. -/
def width : OperandForm → Nat
  | fixedShift .. => 0
  | constantShifted | wideConstantShifted | postRegister | mode2Offset | mode3Offset
  | mode5 _ | mode5Half _ | mode6 | signedOffset _ | shortOffset _ | shortWordOffset _
  | exclusiveOffset | scaledOffset _ | indexed | stackOffset | tableByte | tableHalf
  | vectorOffsets _ => 2
  | registerShifted | mode2 | mode3 _ | shiftedIndex => 3
  | _ => 1

/-- The form is one of a memory operand. -/
def isMemory : OperandForm → Bool
  | mode2 | mode3 _ | mode5 _ | mode5Half _ | mode6 | baseOnly | signedOffset _ | shiftedIndex
  | shortOffset _ | shortWordOffset _ | exclusiveOffset | literal | scaledOffset _ | indexed
  | stackOffset | tableByte | tableHalf | vectorOffsets _ => true
  | _ => false

end OperandForm

/-- A form at a place: the first field that it reads. -/
inductive Site where
  | effect (form : EffectForm) (slot : Nat)
  | operand (form : OperandForm) (slot : Nat)
  deriving DecidableEq, Repr

namespace Site

/-- The first field that the site reads. -/
def slot : Site → Nat
  | effect _ i => i
  | operand _ i => i

/-- The number of fields that the site covers. -/
def width : Site → Nat
  | effect form _ => form.width
  | operand form _ => form.width

/-- The site is one of a memory operand. -/
def isMemory : Site → Bool
  | effect .. => false
  | operand form _ => form.isMemory

end Site

end OperandReport.Arm
