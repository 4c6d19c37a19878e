import OperandReport.Outcome
import OperandReport.Power.Report

/-!
# PowerPC branch conditions and effects

Where the condition of a branch comes from: from the fields that the template
names, or from a predicate code, and what the prediction forms change in it.
-/

namespace OperandReport.Power

/-! ## Conditions -/

/-- The predicate code of "this condition bit is set". -/
def bitSetCode : Nat := 1024

/-- The predicate code of "this condition bit is clear". -/
def bitClearCode : Nat := 1025

/-- The value of a field of a branch condition.  A register field stands for the
number of a condition bit. -/
def ConditionSource.read (e : Encoded) : ConditionSource → Outcome Nat
  | constant n => .ok n
  | slot i =>
    match e.field i with
    | .immediate v => .ok v.byte
    | .vacant => .ok 0
    | .register _ =>
      let r := registerAt e i
      if r.family? = some .conditionBit then .ok (r.index?.getD 0)
      else
        ⟨[s!"[ppc::mapping] {r.name} isn't a condition register bit"], .ok 0⟩

/-- The condition that the template spells out, if it does. -/
def Condition.ofTemplate (e : Encoded) : Outcome (Option Condition) :=
  match e.opcode.condition with
  | none => .ok none
  | some (bo, bi) =>
    (bo.read e).bind fun bo => (bi.read e).bind fun bi => .ok (some (decode bo bi))

/-- The condition of a predicate code and a condition register.  Two codes are about
a single condition bit; the others hold `bo` and, above it, the place of a bit in
the condition field. -/
def Condition.ofPredicate (code : Nat) (r : Register) : Condition :=
  if code = bitSetCode then decode 12 (r.index?.getD 0)
  else if code = bitClearCode then decode 4 (r.index?.getD 0)
  else
    let field := if r.family? = some .conditionField then r.index?.getD 0 else 0
    decode (code % 32) (4 * field + code / 32 % 4)

/-- Changes the condition by the form at field `i`. -/
def ConditionForm.apply (e : Encoded) (i : Nat) (condition : Option Condition) :
    ConditionForm → Option Condition
  | predicate => some (.ofPredicate (e.immediate i).toNat (registerAt e (i + 1)))
  | predicateHint =>
    let code := (e.immediate i).toNat
    if code = bitSetCode ∨ code = bitClearCode then condition
    else condition.map ({ · with hint := .ofBits code })
  | hint => condition.map ({ · with hint := .ofBits (e.immediate i).toNat })

/-! ## Effects -/

namespace Effects

/-- The effects that the template alone gives. -/
def ofTemplate (t : Template) : Except Fault Effects := do
  let reads ← OrderedSet.ofList t.reads
  let writes ← OrderedSet.ofList t.writes
  let groups ← OrderedSet.ofList t.groups
  return { reads, writes, groups, writeback := t.writeback }

/-- Adds the count register, read and written. -/
def countDown (fx : Effects) : Except Fault Effects := do
  let reads ← fx.reads.insert .ctr
  let writes ← fx.writes.insert .ctr
  return { fx with reads, writes }

/-- Adds a group. -/
def addGroup (fx : Effects) (g : Group) : Except Fault Effects := do
  let groups ← fx.groups.insert g
  return { fx with groups }

/-- Settles what follows from the condition and the template: the count register,
the recorded result, and whether the instruction jumps. -/
def settle (t : Template) (condition : Option Condition) (fx : Effects) :
    Except Fault Effects := do
  let fx ← if condition.any Condition.decrementsCount then fx.countDown else .ok fx
  let fx := { fx with recordsResult := writesAny fx.writes.items [.conditionField 0] }
  if t.jumps then fx.addGroup .jump else .ok fx

end Effects

end OperandReport.Power
