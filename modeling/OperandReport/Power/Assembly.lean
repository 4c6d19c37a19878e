import OperandReport.Power.Contribution
import OperandReport.Power.Effect

/-!
# Assembly of PowerPC reports

A report is assembled in steps.  `fill` takes all of them in order: it starts from
the template, visits every site, and settles what follows from the whole.  The
single steps are available too, on an instruction with a report; without one
every step does nothing.

## Main results

* `visit_operand_condition`, `visit_condition_operands`: each sort of site leaves
  the other's part of a report alone.
-/

namespace OperandReport.Power

namespace Report

/-- The report that the template and its condition fields give. -/
def initial (e : Encoded) : Outcome Report :=
  (Condition.ofTemplate e).bind fun condition =>
    .ofResult ((Effects.ofTemplate e.opcode).map fun effects => { condition, effects })

/-- Visits one site. -/
def visit (e : Encoded) (report : Report) : Site → Outcome Report
  | .condition form i => .ok { report with condition := form.apply e i report.condition }
  | .operand form i =>
    (report.operands.applyAll (form.edits e i)).map ({ report with operands := · })

/-- Visits sites in order, up to the first fault. -/
def visitAll (e : Encoded) (report : Report) : List Site → Outcome Report
  | [] => .ok report
  | site :: rest => (report.visit e site).bind (visitAll e · rest)

/-- Opens a memory operand. -/
def openMemory (e : Encoded) (report : Report) : Except Fault Report :=
  (report.operands.start (memoryOperand e {})).map ({ report with operands := · })

/-- Closes the memory operand that is open. -/
def closeMemory (report : Report) : Except Fault Report :=
  report.operands.close.map ({ report with operands := · })

/-- Settles the report; no memory operand may be open any more. -/
def finish (e : Encoded) (report : Report) : Except Fault Report :=
  if report.operands.isOpen then .error (.leftOpen e.opcode.name)
  else (report.effects.settle e.opcode report.condition).map ({ report with effects := · })

/-- The complete report of an instruction. -/
def fill (e : Encoded) : Outcome Report :=
  (initial e).bind fun report =>
    (report.visitAll e e.opcode.sites).bind fun report => .ofResult (report.finish e)

end Report

/-- One step of the assembly. -/
inductive Step where
  | initial
  | fill
  | openMemory
  | closeMemory
  | visit (site : Site)
  | finish
  deriving DecidableEq, Repr

/-- Takes one step on a report. -/
def Report.take (e : Encoded) (report : Report) : Step → Outcome Report
  | .initial => initial e
  | .fill => fill e
  | .openMemory => .ofResult (report.openMemory e)
  | .closeMemory => .ofResult report.closeMemory
  | .visit site => report.visit e site
  | .finish => .ofResult (report.finish e)

/-- Takes one step on an instruction; without a report there is nothing to do. -/
def Instruction.take (insn : Instruction) (step : Step) : Outcome Instruction :=
  match insn.report with
  | none => .ok insn
  | some report =>
    (report.take insn.toEncoded step).map fun report => { insn with report := some report }

/-- A condition form leaves the operands alone. -/
theorem Report.visit_condition_operands {e : Encoded} {report after : Report}
    {form : ConditionForm} {i : Nat}
    (h : (report.visit e (.condition form i)).result = .ok after) :
    after.operands = report.operands := by
  simp only [visit, Outcome.ok, Except.ok.injEq] at h
  rw [← h]

/-- An operand form leaves the condition alone. -/
theorem Report.visit_operand_condition {e : Encoded} {report after : Report}
    {form : OperandForm} {i : Nat}
    (h : (report.visit e (.operand form i)).result = .ok after) :
    after.condition = report.condition := by
  simp only [visit, Outcome.map] at h
  cases hf : (report.operands.applyAll (form.edits e i)).result with
  | error f => simp [hf, Except.map] at h
  | ok ops =>
    simp only [hf, Except.map, Except.ok.injEq] at h
    rw [← h]

end OperandReport.Power
