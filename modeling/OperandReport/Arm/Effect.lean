import OperandReport.Arm.Report

/-!
# ARM effects

What the effect forms do.  A fresh set of effects starts from the template; each
effect form then reads its field and changes the effects, and nothing else.
-/

namespace OperandReport.Arm

namespace Effects

/-- The effects that the template alone gives. -/
def ofTemplate (t : Template) : Except Fault Effects := do
  let reads ← OrderedSet.ofList t.reads
  let writes ← OrderedSet.ofList t.writes
  let groups ← OrderedSet.ofList t.groups
  return { reads, writes, groups, writeback := t.writeback, postIndexed := t.postIndexed,
           userMode := t.userMode }

/-- Adds an implicit register that is read. -/
def addRead (fx : Effects) (r : Register) : Except Fault Effects := do
  let reads ← fx.reads.insert r
  return { fx with reads }

/-- Adds an implicit register that is written. -/
def addWrite (fx : Effects) (r : Register) : Except Fault Effects := do
  let writes ← fx.writes.insert r
  return { fx with writes }

/-- Adds a group. -/
def addGroup (fx : Effects) (g : Group) : Except Fault Effects := do
  let groups ← fx.groups.insert g
  return { fx with groups }

/-- Changes the effects by the form at field `i`. -/
def apply (e : Encoded) (i : Nat) (fx : Effects) : EffectForm → Except Fault Effects
  | .flagSetter =>
    if e.registerId i = 0 then .ok { fx with writes := fx.writes.erase .cpsr }
    else fx.addWrite .cpsr
  | .predicate =>
    let condition := Condition.ofCode (e.immediate i).byte
    let fx := { fx with condition := some condition }
    if condition = .al then .ok fx else fx.addRead .cpsr
  | .mandatoryPredicate | .restrictedPredicate =>
    .ok { fx with condition := some (.ofCode (e.immediate i).byte) }
  | .vectorPredicate =>
    let side := VectorCondition.ofCode? (e.immediate i).toNat
    let fx := { fx with vectorCondition := side }
    if side.isSome then fx.addRead .vpr else .ok fx
  | .interruptMode => .ok { fx with interruptMode := InterruptMode.ofCode? (e.immediate i).toNat }
  | .interruptMask => .ok { fx with interruptMask := some ((e.immediate i).toNat % 8) }
  | .memoryBarrier =>
    .ok { fx with barrier := some (.memory e.mode.v8 (e.immediate i).byte) }
  | .instructionBarrier => .ok { fx with barrier := some (.instruction (e.immediate i).byte) }
  | .traceBarrier => .ok { fx with barrier := some (.trace (e.immediate i).byte) }
  | .blockMask | .vectorBlockMask => .ok { fx with blockMask := (e.immediate i).byte }

end Effects

/-- The registers whose writing updates the flags. -/
def flagRegisters : List Register := [.cpsr, .apsr, .apsrNzcv]

/-- The operand is a flag register that is written. -/
def Operand.writesFlags (op : Operand) : Bool :=
  op.access.write &&
    match op.value with
    | .register r => r ∈ flagRegisters
    | _ => false

/-- Settles what follows from all operands and effects together: whether the flags
are updated, and whether the instruction jumps. -/
def Effects.settle (t : Template) (operands : List Operand) (fx : Effects) :
    Except Fault Effects :=
  let explicit := operands.any Operand.writesFlags
  let fx := { fx with updatesFlags := explicit || writesAny fx.writes.items flagRegisters }
  if t.jumps then fx.addGroup .jump else .ok fx

end OperandReport.Arm
