import OperandReport.Arm.Register
import OperandReport.Text.Hex

/-!
# Status registers

The special registers that system moves name: the status registers with the
fields that are written, the banked copies of core and status registers that
belong to a processor mode, and the special registers of the microcontroller
profile, which are only known by their number.
-/

namespace OperandReport.Arm

/-- A processor mode with registers of its own. -/
inductive Bank where
  | usr
  | fiq
  | irq
  | svc
  | abt
  | und
  | mon
  | hyp
  deriving DecidableEq, Repr

/-- The name of a processor mode. -/
def Bank.name : Bank → String
  | .usr => "usr"
  | .fiq => "fiq"
  | .irq => "irq"
  | .svc => "svc"
  | .abt => "abt"
  | .und => "und"
  | .mon => "mon"
  | .hyp => "hyp"

/-- A register that belongs to a processor mode. -/
inductive BankedRegister where
  | core (bank : Bank) (register : Register)
  | status (bank : Bank)
  /-- the return address of hypervisor mode -/
  | hypReturn
  deriving DecidableEq, Repr

namespace BankedRegister

/-- The banked register of a six-bit encoding: bit 5 asks for a status register,
the low five bits select the bank and the register.  Some encodings are free. -/
def ofCode? (n : Nat) : Option BankedRegister :=
  let select := n % 32
  if n / 32 % 2 = 1 then
    match select with
    | 14 => some (status .fiq)
    | 16 => some (status .irq)
    | 18 => some (status .svc)
    | 20 => some (status .abt)
    | 22 => some (status .und)
    | 28 => some (status .mon)
    | 30 => some (status .hyp)
    | _ => none
  else if select < 7 then some (core .usr (Register.core (8 + select)))
  else if 8 ≤ select ∧ select < 15 then some (core .fiq (Register.core select))
  else
    match select with
    | 16 => some (core .irq .lr)
    | 17 => some (core .irq .sp)
    | 18 => some (core .svc .lr)
    | 19 => some (core .svc .sp)
    | 20 => some (core .abt .lr)
    | 21 => some (core .abt .sp)
    | 22 => some (core .und .lr)
    | 23 => some (core .und .sp)
    | 28 => some (core .mon .lr)
    | 29 => some (core .mon .sp)
    | 30 => some hypReturn
    | 31 => some (core .hyp .sp)
    | _ => none

/-- The name of a banked register.  Here `r9` to `r12` go by their numbers. -/
def name : BankedRegister → String
  | core bank register =>
    match register.index? with
    | some n => if 8 ≤ n ∧ n ≤ 12 then s!"r{n}_{bank.name}" else s!"{register.name}_{bank.name}"
    | none => s!"{register.name}_{bank.name}"
  | status bank => s!"spsr_{bank.name}"
  | hypReturn => "elr_hyp"

end BankedRegister

/-- The fields of a status register that a move writes. -/
structure StatusFields where
  control : Bool := false
  extension : Bool := false
  status : Bool := false
  flags : Bool := false
  deriving DecidableEq, Repr

namespace StatusFields

/-- The fields of a four-bit mask; higher bits are dropped. -/
def ofMask (n : Nat) : StatusFields where
  control := n % 2 == 1
  extension := n / 2 % 2 == 1
  status := n / 4 % 2 == 1
  flags := n / 8 % 2 == 1

/-- The letters of the fields, from the top. -/
def letters (f : StatusFields) : String :=
  (if f.flags then "f" else "") ++ (if f.status then "s" else "") ++
    (if f.extension then "x" else "") ++ (if f.control then "c" else "")

end StatusFields

/-- The flags that a move writes through the application status register. -/
inductive FlagGroup where
  | nzcvq
  | g
  | nzcvqg
  deriving DecidableEq, Repr

/-- A special register of a system move. -/
inductive StatusRegister where
  | application (flags : FlagGroup)
  | current (fields : StatusFields)
  | saved (fields : StatusFields)
  /-- a special register of the microcontroller profile -/
  | numbered (number : Nat)
  | banked (register : BankedRegister)
  deriving DecidableEq, Repr

namespace StatusRegister

/-- A status register name with the letters of its fields. -/
def fieldName (base : String) (fields : StatusFields) : String :=
  if fields.letters = "" then base else base ++ "_" ++ fields.letters

/-- The name of a special register. -/
def name : StatusRegister → String
  | application .nzcvq => "apsr_nzcvq"
  | application .g => "apsr_g"
  | application .nzcvqg => "apsr_nzcvqg"
  | current fields => fieldName "cpsr" fields
  | saved fields => fieldName "spsr" fields
  | numbered n => "sysm_" ++ Hex.ofNat n
  | banked register => register.name

/-- The register that a move to a status register writes, from its mask.  Bits
above the low four ask for the saved register; three masks of the current one
stand for flags of the application register.  The microcontroller profile has
twelve-bit register numbers instead. -/
def ofMask (mClass : Bool) (mask : Nat) : StatusRegister :=
  if mClass then numbered (mask % 4096)
  else if mask / 16 = 0 then
    match mask with
    | 8 => application .nzcvq
    | 4 => application .g
    | 12 => application .nzcvqg
    | _ => current (.ofMask mask)
  else saved (.ofMask mask)

end StatusRegister

end OperandReport.Arm
