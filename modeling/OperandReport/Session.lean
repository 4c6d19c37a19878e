import OperandReport.Arm.Assembly
import OperandReport.Arm.Listing
import OperandReport.Arm.Screening
import OperandReport.Arm.Usage
import OperandReport.Power.Assembly
import OperandReport.Power.Listing
import OperandReport.Power.Screening
import OperandReport.Power.Usage

/-!
# Sessions

A session fixes the architecture and the mode of a code stream, and whether reports
are wanted.  It turns an opcode with its fields into an instruction: the opcode is
looked up, the fields are screened, and the report is filled.

An instruction is refused with a rejection; a broken rule during the assembly of
its report is a fault.
-/

namespace OperandReport

/-- The architectures. -/
inductive Architecture where
  | arm
  | power
  deriving DecidableEq, Repr, Inhabited

/-- The name of an architecture. -/
def Architecture.name : Architecture → String
  | .arm => "Arm"
  | .power => "Ppc"

/-- How a code stream is to be read. -/
structure Session where
  architecture : Architecture := .arm
  mode : Mode := {}
  detail : Bool := true
  deriving DecidableEq, Repr, Inhabited

/-- An instruction of either architecture. -/
inductive Decoded where
  | arm (insn : Arm.Instruction)
  | power (insn : Power.Instruction)
  deriving DecidableEq, Repr

/-- A report of either architecture. -/
inductive AnyReport where
  | arm (report : Arm.Report)
  | power (report : Power.Report)
  deriving DecidableEq, Repr

/-- A register of either architecture. -/
inductive AnyRegister where
  | arm (r : Arm.Register)
  | power (r : Power.Register)
  deriving DecidableEq, Repr

/-- The name of a register. -/
def AnyRegister.name : AnyRegister → String
  | arm r => r.name
  | power r => r.name

namespace Decoded

/-- The architecture of an instruction. -/
def architecture : Decoded → Architecture
  | arm _ => .arm
  | power _ => .power

/-- The mnemonic of an instruction. -/
def mnemonic : Decoded → String
  | arm insn => insn.opcode.mnemonic
  | power insn => insn.opcode.mnemonic

/-- The address of an instruction. -/
def address : Decoded → BitVec 64
  | arm insn => insn.address
  | power insn => insn.address

/-- The report on an instruction; there is none without detail. -/
def report : Decoded → Except Rejection AnyReport
  | arm insn => (insn.report.map AnyReport.arm).elim (.error ⟨.withoutDetail, none⟩) .ok
  | power insn => (insn.report.map AnyReport.power).elim (.error ⟨.withoutDetail, none⟩) .ok

end Decoded

/-- The listing of a report. -/
def AnyReport.listing : AnyReport → String
  | arm report => report.listing
  | power report => report.listing

/-- The registers that an instruction reads and writes. -/
def AnyReport.usage : AnyReport → Footprint AnyRegister
  | arm report => report.usage.map .arm
  | power report => report.usage.map .power

/-- The registers that an instruction reads and writes, if it has a report. -/
def Decoded.usage (insn : Decoded) : Except Rejection (Footprint AnyRegister) :=
  insn.report.map AnyReport.usage

namespace Session

/-- The rejection of an opcode that the architecture does not have. -/
def unknownOpcode : Rejection := ⟨.unknownOpcode, none⟩

/-- Decodes an ARM instruction; a session for another architecture refuses it. -/
def decodeArm (s : Session) (t : Arm.Template) (fields : List Field) (address : BitVec 64) :
    Outcome (Except Rejection Decoded) :=
  if s.architecture = .arm then
    match Arm.Instruction.build ⟨t, fields, address, s.mode⟩ s.detail with
    | .error rejection => .ok (.error rejection)
    | .ok insn => (Arm.Instruction.take insn .fill).map fun insn => .ok (.arm insn)
  else ⟨["[opdetail::arm] handle is set up for " ++ s.architecture.name], .ok (.error unknownOpcode)⟩

/-- Decodes a PowerPC instruction; a session for another architecture refuses it. -/
def decodePower (s : Session) (t : Power.Template) (fields : List Field)
    (address : BitVec 64) : Outcome (Except Rejection Decoded) :=
  if s.architecture = .power then
    match Power.Instruction.build ⟨t, fields, address, s.mode⟩ s.detail with
    | .error rejection => .ok (.error rejection)
    | .ok insn => (Power.Instruction.take insn .fill).map fun insn => .ok (.power insn)
  else ⟨["[opdetail::ppc] handle is set up for " ++ s.architecture.name], .ok (.error unknownOpcode)⟩

/-- Decodes an instruction from its opcode number. -/
def decode (s : Session) (number : Nat) (fields : List Field) (address : BitVec 64) :
    Outcome (Except Rejection Decoded) :=
  match s.architecture with
  | .arm =>
    match Arm.Template.ofNumber? number with
    | some t => s.decodeArm t fields address
    | none => .ok (.error unknownOpcode)
  | .power =>
    match Power.Template.ofNumber? number with
    | some t => s.decodePower t fields address
    | none => .ok (.error unknownOpcode)

end Session

end OperandReport
