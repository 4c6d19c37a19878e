import OperandReport.Fault

/-!
# ARM registers

A register is named by its number in the register file.  The numbering has gaps
between the families, and zero is the number of no register at all; it also ends
implicit register lists.

The core registers 13, 14 and 15 are the special registers `sp`, `lr` and `pc`,
so the core family itself holds only `r0` to `r12`.

## Main results

* `ofId?_eq_some_iff`: the numbers that name a register, or none.
* `core_number`, `double_number`: a register built from an index has that index.
-/

namespace OperandReport.Arm

/-- A register by its number in the register file. -/
structure Register where
  id : Nat := 0
  deriving DecidableEq, Repr, Inhabited

/-- The families of registers. -/
inductive Register.Family where
  | special
  | core
  | single
  | double
  | quad
  /-- two neighbouring double registers -/
  | doublePair
  /-- two double registers with one between them -/
  | spacedPair
  /-- four neighbouring double registers -/
  | doubleQuad
  /-- an even core register and its neighbour -/
  | corePair
  /-- two neighbouring quad registers -/
  | quadPair
  /-- four neighbouring quad registers -/
  | quadQuad
  deriving DecidableEq, Repr

namespace Register

/-- The number of the first register of a family. -/
def Family.first : Family → Nat
  | special => 1
  | core => 32
  | single => 48
  | double => 80
  | quad => 112
  | doublePair => 128
  | spacedPair => 160
  | doubleQuad => 192
  | corePair => 224
  | quadPair => 232
  | quadQuad => 240

/-- The number of registers in a family. -/
def Family.count : Family → Nat
  | special => 22
  | core => 13
  | single => 32
  | double => 32
  | quad => 16
  | doublePair => 31
  | spacedPair => 30
  | doubleQuad => 29
  | corePair => 7
  | quadPair => 7
  | quadQuad => 5

/-- All families, in the order of the numbering. -/
def Family.all : List Family :=
  [special, core, single, double, quad, doublePair, spacedPair, doubleQuad, corePair, quadPair,
    quadQuad]

/-- The register number lies in the family. -/
def Family.holds (family : Family) (r : Register) : Bool :=
  family.first ≤ r.id && r.id < family.first + family.count

theorem Family.holds_iff {family : Family} {r : Register} :
    family.holds r = true ↔ family.first ≤ r.id ∧ r.id < family.first + family.count := by
  simp [holds]

/-- No register. -/
def none : Register := ⟨0⟩
def apsr : Register := ⟨1⟩
def apsrNzcv : Register := ⟨2⟩
def cpsr : Register := ⟨3⟩
def fpscr : Register := ⟨9⟩
def fpscrNzcv : Register := ⟨10⟩
def itstate : Register := ⟨13⟩
def lr : Register := ⟨14⟩
def pc : Register := ⟨15⟩
def sp : Register := ⟨16⟩
def vpr : Register := ⟨18⟩

/-- The names of the special registers, in the order of the numbering. -/
def specialNames : List String :=
  ["apsr", "apsr_nzcv", "cpsr", "fpcxtns", "fpcxts", "fpexc", "fpinst", "fpinst2", "fpscr",
    "fpscr_nzcv", "fpscr_nzcvqc", "fpsid", "itstate", "lr", "pc", "sp", "spsr", "vpr", "mvfr0",
    "mvfr1", "mvfr2", "zr"]

/-- The family of a register; no register, or a number in a gap, has none. -/
def family? (r : Register) : Option Family := Family.all.find? (·.holds r)

/-- It is a register, and not the absence of one. -/
def isSome (r : Register) : Bool := r.id != 0

/-- The register with a number, if the number is zero or belongs to a family. -/
def ofId? (id : Nat) : Option Register :=
  if id = 0 ∨ (family? ⟨id⟩).isSome then some ⟨id⟩ else Option.none

/-- The registers that stand for several physical ones. -/
def Family.isAggregate : Family → Bool
  | doublePair | spacedPair | doubleQuad | corePair | quadPair | quadQuad => true
  | _ => false

/-- The register stands for several physical ones. -/
def isAggregate (r : Register) : Bool := r.family?.any Family.isAggregate

/-- The index of a register in its family; an aggregate has the index of its first
part, and `sp`, `lr` and `pc` count as the core registers 13, 14 and 15. -/
def index? (r : Register) : Option Nat :=
  match r.family? with
  | Option.none => Option.none
  | some .special =>
    if r = sp then some 13 else if r = lr then some 14 else if r = pc then some 15
    else Option.none
  | some .corePair => some (2 * (r.id - Family.corePair.first))
  | some family => some (r.id - family.first)

/-- The core register of an index below 16. -/
def core (n : Nat) : Register :=
  if n < 13 then ⟨32 + n⟩ else if n = 13 then sp else if n = 14 then lr else pc

/-- The single register of an index below 32. -/
def single (n : Nat) : Register := ⟨48 + n⟩

/-- The double register of an index below 32. -/
def double (n : Nat) : Register := ⟨80 + n⟩

/-- The quad register of an index below 16. -/
def quad (n : Nat) : Register := ⟨112 + n⟩

/-- The register of a family with an index.  An index outside the family is a fault;
a pair of core registers starts at an even one. -/
def build (family : Family) (n : Nat) : Except Fault Register :=
  match family with
  | .core | .special => if n < 16 then .ok (core n) else .error .registerNumber
  | .corePair =>
    if n < 14 ∧ n % 2 = 0 then .ok ⟨Family.corePair.first + n / 2⟩ else .error .registerPair
  | family =>
    if n < family.count then .ok ⟨family.first + n⟩ else .error .registerNumber

/-- The register `delta` steps further along in the same family of physical
registers. -/
def offset? (r : Register) (delta : Nat) : Option Register := do
  let n ← r.index?
  let family ← r.family?
  match family with
  | .double => if n + delta < 32 then some (double (n + delta)) else Option.none
  | .quad => if n + delta < 16 then some (quad (n + delta)) else Option.none
  | .single => if n + delta < 32 then some (single (n + delta)) else Option.none
  | .core | .special => if n + delta < 16 then some (core (n + delta)) else Option.none
  | _ => Option.none

/-- The name of the core register of an index below 16. -/
def coreName (n : Nat) : String :=
  match n with
  | 9 => "sb"
  | 10 => "sl"
  | 11 => "fp"
  | 12 => "ip"
  | 13 => "sp"
  | 14 => "lr"
  | 15 => "pc"
  | n => s!"r{n}"

/-- The names of several registers that only differ in their index. -/
def joined (letter : String) (indices : List Nat) : String :=
  "_".intercalate (indices.map fun n => s!"{letter}{n}")

/-- The name of a register. -/
def name (r : Register) : String :=
  let n := r.index?.getD 0
  match r.family? with
  | Option.none => "invalid"
  | some .special => specialNames.getD (r.id - 1) "invalid"
  | some .core => coreName n
  | some .single => s!"s{n}"
  | some .double => s!"d{n}"
  | some .quad => s!"q{n}"
  | some .doublePair => joined "d" [n, n + 1]
  | some .spacedPair => joined "d" [n, n + 2]
  | some .doubleQuad => joined "d" [n, n + 1, n + 2, n + 3]
  | some .corePair => coreName n ++ "_" ++ coreName (n + 1)
  | some .quadPair => joined "q" [n, n + 1]
  | some .quadQuad => joined "q" [n, n + 1, n + 2, n + 3]

/-- The numbers that name a register, or none. -/
theorem ofId?_eq_some_iff {id : Nat} {r : Register} :
    ofId? id = some r ↔ r = ⟨id⟩ ∧ (id = 0 ∨ (family? ⟨id⟩).isSome) := by
  by_cases h : id = 0 ∨ (family? ⟨id⟩).isSome
  · rw [ofId?, if_pos h, Option.some.injEq]
    exact ⟨fun hr => ⟨hr.symm, h⟩, fun hr => hr.1.symm⟩
  · rw [ofId?, if_neg h]
    exact ⟨fun hr => (Option.some_ne_none r hr.symm).elim, fun hr => (h hr.2).elim⟩

/-- A core register built from an index has that index. -/
theorem core_number {n : Nat} (h : n < 16) : (core n).index? = some n := by
  have : ∀ m : Fin 16, (core m.val).index? = some m.val := by decide
  exact this ⟨n, h⟩

/-- A double register built from an index has that index. -/
theorem double_number {n : Nat} (h : n < 32) : (double n).index? = some n := by
  have : ∀ m : Fin 32, (double m.val).index? = some m.val := by decide
  exact this ⟨n, h⟩

end Register

end OperandReport.Arm
