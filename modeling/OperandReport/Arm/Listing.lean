import OperandReport.Arm.Report

/-!
# Listings of ARM reports

A listing writes a report as indented lines, one fact a line: the operands in
order, each with its parts, and then the effects that are worth a line.
-/

namespace OperandReport.Arm

/-- The lines on a memory operand, after the line that names its type. -/
def Memory.listing (m : Memory) (label : String) : List String :=
  let part (shown : Bool) (name text : String) : List String :=
    if shown then ["\t\t\t" ++ label ++ ".mem." ++ name ++ ": " ++ text] else []
  part m.base.isSome "base" ("REG = " ++ m.base.name) ++
    part m.index.isSome "index" ("REG = " ++ m.index.name) ++
    part (m.scale != 1) "scale" (toString m.scale) ++
    part (m.displacement != 0) "disp" (Hex.ofNat m.displacement.toNat) ++
    part (m.leftShift != 0) "lshift" (Hex.ofNat m.leftShift) ++
    part (m.alignment != 0) "align" (toString m.alignment)

/-- The lines on the value of an operand. -/
def Value.listing (value : Value) (label : String) : List String :=
  let typed (text : String) : String := "\t\t" ++ label ++ ".type: " ++ text
  match value with
  | .unset => []
  | .register r => [typed ("REG = " ++ r.name)]
  | .immediate v => [typed ("IMM = " ++ Hex.ofInt v.toInt)]
  | .coprocessorRegister n => [typed ("C-IMM = " ++ toString n)]
  | .coprocessor n => [typed ("P-IMM = " ++ toString n)]
  | .float f => [typed ("FP = " ++ f.text)]
  | .status r => [typed ("SYSREG = " ++ r.name)]
  | .endianness order => [typed ("SETEND = " ++ order.name)]
  | .memory m => typed "MEM" :: m.listing label

/-- The line on a shift. -/
def Shift.listing (s : Shift) : List String :=
  if s.kind = .none then []
  else if s.kind.isByRegister then
    let r := (Register.ofId? (s.value % 65536)).getD .none
    ["\t\t\tShift: " ++ s.kind.name ++ " = " ++ r.name]
  else ["\t\t\tShift: " ++ s.kind.name ++ " = " ++ toString s.value]

/-- The lines on the operand at position `i`. -/
def Operand.listing (op : Operand) (i : Nat) : List String :=
  let label := s!"operands[{i}]"
  op.value.listing label ++
    op.access.label?.toList.map (("\t\t" ++ label ++ ".access: ") ++ ·) ++
    op.lane.toList.map (fun n => s!"\t\t{label}.neon_lane = {n}") ++
    op.shift.listing ++
    op.vectorIndex.toList.map (fun n => s!"\t\t{label}.vector_index = {n}") ++
    if op.subtracted then ["\t\tSubtracted: True"] else []

/-- The lines on the effects of an instruction. -/
def Effects.listing (fx : Effects) : List String :=
  let named (title : String) (names : List String) : List String :=
    if names.isEmpty then [] else ["\t" ++ title ++ ": " ++ " ".intercalate names]
  ((fx.condition.filter (· != .al)).toList.map fun c => "\tCode condition: " ++ c.name) ++
    (fx.vectorCondition.toList.map fun c => "\tVector code condition: " ++ c.name) ++
    (if fx.updatesFlags then ["\tUpdate-flags: True"] else []) ++
    (if fx.writeback then
      [if fx.postIndexed then "\tWrite-back: Post" else "\tWrite-back: Pre"]
    else []) ++
    (fx.interruptMode.toList.map fun m => "\tCPSI-mode: " ++ m.name) ++
    (fx.interruptMask.toList.map fun n => "\tCPSI-flag: " ++ Hex.ofNat n) ++
    (fx.barrier.toList.map fun b => "\tMemory-barrier: " ++ b.name) ++
    (if fx.blockMask = 0 then [] else ["\tPredicate Mask: " ++ Hex.ofNat fx.blockMask]) ++
    named "Registers read" (fx.reads.items.map Register.name) ++
    named "Registers modified" (fx.writes.items.map Register.name) ++
    named "Groups" (fx.groups.items.map Group.name)

/-- The listing of a report, each line with its end. -/
def Report.listing (report : Report) : String :=
  let operands := report.operands.toList
  let lines :=
    s!"\top_count: {operands.length}" ::
      operands.zipIdx.flatMap (fun (op, i) => op.listing i) ++ report.effects.listing
  String.join (lines.map (· ++ "\n"))

end OperandReport.Arm
