import OperandReport.Arm.Contribution
import OperandReport.Arm.Effect

/-!
# Assembly of ARM reports

A report is assembled in steps.  `fill` takes all of them in order: it starts from
the template, visits every site, and settles what follows from the whole.  The
single steps are available too, on an instruction with a report; without one
every step does nothing.

## Main results

* `visit_effect`, `visit_operand`: a site changes only its own half of a report.
-/

namespace OperandReport.Arm

namespace Report

/-- The report that the template alone gives. -/
def initial (e : Encoded) : Except Fault Report :=
  (Effects.ofTemplate e.opcode).map fun effects => { effects }

/-- Visits one site. -/
def visit (e : Encoded) (report : Report) : Site → Outcome Report
  | .effect form i =>
    .ofResult ((report.effects.apply e i form).map ({ report with effects := · }))
  | .operand form i =>
    (report.operands.applyAll (form.edits e i)).map ({ report with operands := · })

/-- Visits sites in order, up to the first fault. -/
def visitAll (e : Encoded) (report : Report) : List Site → Outcome Report
  | [] => .ok report
  | site :: rest => (report.visit e site).bind (visitAll e · rest)

/-- Opens a memory operand with the access of the first slot. -/
def openMemory (e : Encoded) (report : Report) : Except Fault Report :=
  (report.operands.start { value := .memory {}, access := nominalAccessAt e 0 }).map
    ({ report with operands := · })

/-- Closes the memory operand that is open. -/
def closeMemory (report : Report) : Except Fault Report :=
  report.operands.close.map ({ report with operands := · })

/-- Settles the report; no memory operand may be open any more. -/
def finish (e : Encoded) (report : Report) : Except Fault Report :=
  if report.operands.isOpen then .error (.leftOpen e.opcode.name)
  else
    (report.effects.settle e.opcode report.operands.toList).map ({ report with effects := · })

/-- The complete report of an instruction. -/
def fill (e : Encoded) : Outcome Report :=
  (Outcome.ofResult (initial e)).bind fun report =>
    (report.visitAll e e.opcode.sites).bind fun report => .ofResult (report.finish e)

end Report

/-- One step of the assembly. -/
inductive Step where
  | initial
  | fill
  | openMemory
  | closeMemory
  | visit (site : Site)
  | finish
  deriving DecidableEq, Repr

/-- Takes one step on a report. -/
def Report.take (e : Encoded) (report : Report) : Step → Outcome Report
  | .initial => .ofResult (initial e)
  | .fill => fill e
  | .openMemory => .ofResult (report.openMemory e)
  | .closeMemory => .ofResult report.closeMemory
  | .visit site => report.visit e site
  | .finish => .ofResult (report.finish e)

/-- Takes one step on an instruction; without a report there is nothing to do. -/
def Instruction.take (insn : Instruction) (step : Step) : Outcome Instruction :=
  match insn.report with
  | none => .ok insn
  | some report =>
    (report.take insn.toEncoded step).map fun report => { insn with report := some report }

/-- An effect form leaves the operands alone. -/
theorem Report.visit_effect {e : Encoded} {report after : Report} {form : EffectForm} {i : Nat}
    (h : (report.visit e (.effect form i)).result = .ok after) :
    after.operands = report.operands := by
  simp only [visit, Outcome.ofResult] at h
  cases hf : report.effects.apply e i form with
  | error f => simp [hf, Except.map] at h
  | ok fx =>
    simp only [hf, Except.map, Except.ok.injEq] at h
    rw [← h]

/-- An operand form leaves the effects alone. -/
theorem Report.visit_operand {e : Encoded} {report after : Report} {form : OperandForm} {i : Nat}
    (h : (report.visit e (.operand form i)).result = .ok after) :
    after.effects = report.effects := by
  simp only [visit, Outcome.map] at h
  cases hf : (report.operands.applyAll (form.edits e i)).result with
  | error f => simp [hf, Except.map] at h
  | ok ops =>
    simp only [hf, Except.map, Except.ok.injEq] at h
    rw [← h]

end OperandReport.Arm
