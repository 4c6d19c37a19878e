import OperandReport.Access
import OperandReport.Arm.Assembly
import OperandReport.Arm.Barrier
import OperandReport.Arm.Condition
import OperandReport.Arm.Contribution
import OperandReport.Arm.Effect
import OperandReport.Arm.Form
import OperandReport.Arm.Group
import OperandReport.Arm.Immediate.Bitfield
import OperandReport.Arm.Immediate.Float
import OperandReport.Arm.Immediate.Rotated
import OperandReport.Arm.Immediate.Vector
import OperandReport.Arm.Listing
import OperandReport.Arm.Opcode
import OperandReport.Arm.Operand
import OperandReport.Arm.PackedWord
import OperandReport.Arm.Register
import OperandReport.Arm.Register.Part
import OperandReport.Arm.Report
import OperandReport.Arm.Screening
import OperandReport.Arm.StatusRegister
import OperandReport.Arm.Template
import OperandReport.Arm.Template.Branch
import OperandReport.Arm.Template.Integer
import OperandReport.Arm.Template.System
import OperandReport.Arm.Template.Thumb
import OperandReport.Arm.Template.Transfer
import OperandReport.Arm.Template.Vector
import OperandReport.Arm.Template.VectorExtension
import OperandReport.Arm.Template.WideThumb
import OperandReport.Arm.Usage
import OperandReport.Cursor
import OperandReport.Cursor.Edit
import OperandReport.Fault
import OperandReport.Footprint
import OperandReport.Instruction
import OperandReport.Journal
import OperandReport.Journal.Ring
import OperandReport.OrderedSet
import OperandReport.Outcome
import OperandReport.Power.Assembly
import OperandReport.Power.Branch
import OperandReport.Power.Contribution
import OperandReport.Power.Effect
import OperandReport.Power.Form
import OperandReport.Power.Group
import OperandReport.Power.Listing
import OperandReport.Power.Opcode
import OperandReport.Power.Operand
import OperandReport.Power.Register
import OperandReport.Power.Register.Part
import OperandReport.Power.Report
import OperandReport.Power.Screening
import OperandReport.Power.Template
import OperandReport.Power.Template.Branch
import OperandReport.Power.Template.Integer
import OperandReport.Power.Template.Special
import OperandReport.Power.Template.Transfer
import OperandReport.Power.Template.Vector
import OperandReport.Power.Usage
import OperandReport.Proofs.Absence
import OperandReport.Proofs.Agreement
import OperandReport.Proofs.Arm.Address
import OperandReport.Proofs.Arm.Agreement
import OperandReport.Proofs.Arm.BaseUsage
import OperandReport.Proofs.Arm.Bracketing
import OperandReport.Proofs.Arm.Commutation
import OperandReport.Proofs.Arm.Contribution
import OperandReport.Proofs.Arm.Effects
import OperandReport.Proofs.Arm.Fill
import OperandReport.Proofs.Arm.Flags
import OperandReport.Proofs.Arm.Implicit
import OperandReport.Proofs.Arm.Magnitude
import OperandReport.Proofs.Arm.Offsets
import OperandReport.Proofs.Arm.Ordinary
import OperandReport.Proofs.Arm.RotatedImmediate
import OperandReport.Proofs.Arm.RotatedReport
import OperandReport.Proofs.Arm.Shifts
import OperandReport.Proofs.Arm.StatusMove
import OperandReport.Proofs.Arm.Steps
import OperandReport.Proofs.Arm.Table
import OperandReport.Proofs.Arm.Visit
import OperandReport.Proofs.Edits
import OperandReport.Proofs.Footprint
import OperandReport.Proofs.History
import OperandReport.Proofs.OrderedSet
import OperandReport.Proofs.Power.Accounting
import OperandReport.Proofs.Power.Address
import OperandReport.Proofs.Power.Agreement
import OperandReport.Proofs.Power.Contribution
import OperandReport.Proofs.Power.Effects
import OperandReport.Proofs.Power.Fill
import OperandReport.Proofs.Power.Implicit
import OperandReport.Proofs.Power.Settling
import OperandReport.Proofs.Power.Spelling
import OperandReport.Proofs.Power.Steps
import OperandReport.Proofs.Relocation
import OperandReport.Proofs.Runs
import OperandReport.Proofs.Screening
import OperandReport.Proofs.Usage
import OperandReport.Proofs.Window
import OperandReport.Rejection
import OperandReport.Screening
import OperandReport.Session
import OperandReport.Settings
import OperandReport.Settings.ModeName
import OperandReport.Slot
import OperandReport.Text.Decimal
import OperandReport.Text.Hex
import OperandReport.Text.Numeral
import OperandReport.Yaml.Document
import OperandReport.Yaml.Node
import OperandReport.Yaml.Place
import OperandReport.Yaml.Scalar
import OperandReport.Yaml.Tag
import OperandReport.Yaml.Token
import OperandReport.Yaml.Token.Layout
import OperandReport.Container
import OperandReport.Cursor.Request
import OperandReport.Cursor.Storage
import OperandReport.Proofs.Arm.Coherence
import OperandReport.Proofs.CursorStorage
import OperandReport.OrderedSet.Request
import OperandReport.OrderedSet.Storage
import OperandReport.Proofs.SetStorage
import OperandReport.Proofs.Journal
import OperandReport.Proofs.Ties
import OperandReport.Proofs.Refilling
import OperandReport.Proofs.Arm.RegisterList
import OperandReport.Proofs.Power.FieldWidth
import OperandReport.Proofs.Arm.Bitfield
import OperandReport.Proofs.Hexadecimal
import OperandReport.Proofs.Arm.PackedWord
import OperandReport.Proofs.ModeList
