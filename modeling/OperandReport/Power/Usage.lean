import OperandReport.Footprint
import OperandReport.Power.Report

/-!
# Register usage of PowerPC reports

The registers that an instruction reads and writes: the implicit ones first, then
those of the operands in order.  A memory base is read, and written as well if the
instruction writes it back; an index register is read.
-/

namespace OperandReport.Power

/-- Records the registers of one operand. -/
def Operand.recordIn (writeback : Bool) (p : Footprint Register) (op : Operand) :
    Footprint Register :=
  match op.value with
  | .register r => p.record r op.access
  | .memory m =>
    let p := if m.base.isSome then p.record m.base (if writeback then .both else .reads) else p
    if m.index.isSome then p.read m.index else p
  | _ => p

/-- The registers that an instruction reads and writes. -/
def Report.usage (report : Report) : Footprint Register :=
  report.operands.toList.foldl (Operand.recordIn report.effects.writeback)
    (.ofImplicit report.effects.reads.items report.effects.writes.items)

end OperandReport.Power
