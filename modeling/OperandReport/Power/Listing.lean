import OperandReport.Power.Report
import OperandReport.Text.Hex

/-!
# Listings of PowerPC reports

A listing writes a report as indented lines, one fact a line: the operands in
order, each with its parts, then the branch condition, then the effects that are
worth a line.
-/

namespace OperandReport.Power

/-- The lines on a memory operand, after the line that names its type. -/
def Memory.listing (m : Memory) (label : String) : List String :=
  let part (shown : Bool) (name text : String) : List String :=
    if shown then ["\t\t\t" ++ label ++ ".mem." ++ name ++ ": " ++ text] else []
  part m.base.isSome "base" ("REG = " ++ m.base.name) ++
    part m.index.isSome "offset" ("REG = " ++ m.index.name) ++
    part (m.displacement != 0) "disp" (Hex.ofInt m.displacement.toInt)

/-- The lines on the operand at position `i`. -/
def Operand.listing (op : Operand) (i : Nat) : List String :=
  let label := s!"operands[{i}]"
  let typed (text : String) : String := "\t\t" ++ label ++ ".type: " ++ text
  let value :=
    match op.value with
    | .unset => []
    | .register r => [typed ("REG = " ++ r.name)]
    | .immediate v => [typed ("IMM = " ++ Hex.ofInt v.toInt)]
    | .memory m => typed "MEM" :: m.listing label
  value ++ op.access.label?.toList.map (("\t\t" ++ label ++ ".access: ") ++ ·)

/-- The line on a prediction. -/
def Hint.listing : Hint → List String
  | none => []
  | unlikely => ["\t\thint: -"]
  | likely => ["\t\thint: +"]

/-- The lines on a branch condition. -/
def Condition.listing (c : Condition) : List String :=
  ["\tBranch:", s!"\t\tbi: {c.bi}", s!"\t\tbo: {c.bo}"] ++
    (match c.test with
    | none => []
    | some test =>
      ["\t\tcrX bit: " ++ c.bit.name, "\t\tcrX: " ++ c.field.name,
        "\t\tpred CR-bit: " ++ test.name]) ++
    c.countTest.toList.map (fun test => "\t\tpred CTR: " ++ test.name) ++ c.hint.listing

/-- The lines on the effects of an instruction. -/
def Effects.listing (fx : Effects) : List String :=
  let named (title : String) (names : List String) : List String :=
    if names.isEmpty then [] else ["\t" ++ title ++ ": " ++ " ".intercalate names]
  (if fx.recordsResult then ["\tUpdate-CR0: True"] else []) ++
    named "Registers read" (fx.reads.items.map Register.name) ++
    named "Registers modified" (fx.writes.items.map Register.name) ++
    named "Groups" (fx.groups.items.map Group.name)

/-- The listing of a report, each line with its end. -/
def Report.listing (report : Report) : String :=
  let operands := report.operands.toList
  let condition := report.condition.toList.flatMap Condition.listing
  let lines :=
    s!"\top_count: {operands.length}" ::
      operands.zipIdx.flatMap (fun (op, i) => op.listing i) ++ condition ++
      report.effects.listing
  String.join (lines.map (· ++ "\n"))

end OperandReport.Power
