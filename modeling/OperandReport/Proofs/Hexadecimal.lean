import Mathlib.Data.List.Induction
import OperandReport.Instruction
import OperandReport.Text.Hex
import OperandReport.Text.Numeral

/-!
# Hexadecimal texts

A number is written with its last digit behind the digits of the rest, and a run of digits is
read from the front.  The two meet at the end of the run: `read?_concat` reads one more digit
there, and both the round trip and the uniqueness of a numeral are inductions from the end.

A signed number is its sign and its magnitude.  The magnitude is a natural number, so the
least number of 64 bits is written like every other one.

## Main results

* `read?_digits`: the digits of a number are read as the number.
* `isNumeral_iff`: a number has one run of lower-case digits without a leading zero.
* `ofInt_readsBack`: what is written for a number of 64 bits, and that it reads back.
-/

namespace OperandReport.Hex

/-- The digits of base sixteen in lower case. -/
def lowerDigits : List Char := "0123456789abcdef".toList

/-- The characters are lower-case digits of the number, and none of them is a zero in front of
another one. -/
structure IsNumeral (digits : List Char) (n : Nat) : Prop where
  lower : ∀ c ∈ digits, c ∈ lowerDigits
  leading : digits.head? = some '0' → digits = ['0']
  value : Numeral.read? 16 digits = some n

/-- The text is a minus sign if the number is negative, the base marker, and the numeral of the
magnitude. -/
def IsWritten (text : String) (i : Int) : Prop :=
  ∃ digits, text.toList = (if i < 0 then ['-'] else []) ++ '0' :: 'x' :: digits ∧
    IsNumeral digits i.natAbs

/-- The number that a text stands for: sign, base marker, magnitude. -/
def read? (text : String) : Option Int :=
  match text.toList with
  | '-' :: '0' :: 'x' :: digits => (Numeral.read? 16 digits).map fun n : Nat => -(n : Int)
  | '0' :: 'x' :: digits => (Numeral.read? 16 digits).map fun n : Nat => (n : Int)
  | _ => none

/-! ## Digits -/

theorem digit?_digit {n : Nat} (h : n < 16) : Numeral.digit? 16 (digit n) = some n := by
  have hAll : ∀ m : Fin 16, Numeral.digit? 16 (digit m.val) = some m.val := by decide
  exact hAll ⟨n, h⟩

theorem digit_eq_zero_iff {n : Nat} (h : n < 16) : digit n = '0' ↔ n = 0 := by
  have hAll : ∀ m : Fin 16, digit m.val = '0' ↔ m.val = 0 := by decide
  exact hAll ⟨n, h⟩

theorem lowerDigits_eq : lowerDigits = (List.range 16).map digit := by decide

theorem digit_mem_lowerDigits {n : Nat} (h : n < 16) : digit n ∈ lowerDigits := by
  rw [lowerDigits_eq]
  exact List.mem_map_of_mem (List.mem_range.mpr h)

theorem exists_digit {c : Char} (h : c ∈ lowerDigits) : ∃ n < 16, c = digit n := by
  rw [lowerDigits_eq] at h
  obtain ⟨n, hRange, rfl⟩ := List.mem_map.mp h
  exact ⟨n, List.mem_range.mp hRange, rfl⟩

/-! ## Runs of digits -/

theorem head?_concat {run : List Char} (hSome : run ≠ []) (c : Char) :
    (run ++ [c]).head? = run.head? := by
  cases run with
  | nil => contradiction
  | cons d rest => rfl

/-- A run is read up to its last digit, and this one is put behind the rest. -/
theorem read?_concat {digits : List Char} (hSome : digits ≠ []) {n : Nat} (hn : n < 16) :
    Numeral.read? 16 (digits ++ [digit n]) =
      (Numeral.read? 16 digits).map fun m => m * 16 + n := by
  cases digits with
  | nil => contradiction
  | cons c rest =>
      simp only [Numeral.read?, List.cons_append, List.isEmpty_cons, Bool.false_eq_true, if_false]
      rw [← List.cons_append, List.foldlM_append]
      cases List.foldlM (fun n c => (Numeral.digit? 16 c).map (n * 16 + ·)) 0 (c :: rest) with
      | none => rfl
      | some m => simp [digit?_digit hn]

theorem read?_singleton {n : Nat} (hn : n < 16) : Numeral.read? 16 [digit n] = some n := by
  simp [Numeral.read?, digit?_digit hn]

theorem digits_of_lt {n : Nat} (h : n < 16) : digits n = [digit n] := by
  rw [digits, if_pos h]

theorem digits_of_le {n : Nat} (h : 16 ≤ n) : digits n = digits (n / 16) ++ [digit (n % 16)] := by
  rw [digits, if_neg (Nat.not_lt.mpr h)]

theorem digits_ne_nil (n : Nat) : digits n ≠ [] := by
  rw [digits]
  split
  · simp
  · simp

/-- The digits of a number are read as the number. -/
theorem read?_digits (n : Nat) : Numeral.read? 16 (digits n) = some n := by
  induction n using digits.induct with
  | case1 n hSmall => rw [digits_of_lt hSmall, read?_singleton hSmall]
  | case2 n hLarge ih =>
      rw [digits_of_le (Nat.not_lt.mp hLarge),
        read?_concat (digits_ne_nil _) (Nat.mod_lt _ (by decide)), ih, Option.map_some]
      exact congrArg some (by omega)

theorem lower_digits (n : Nat) : ∀ c ∈ digits n, c ∈ lowerDigits := by
  induction n using digits.induct with
  | case1 n hSmall =>
      intro c hc
      rw [digits_of_lt hSmall, List.mem_singleton] at hc
      rw [hc]
      exact digit_mem_lowerDigits hSmall
  | case2 n hLarge ih =>
      intro c hc
      rw [digits_of_le (Nat.not_lt.mp hLarge), List.mem_append, List.mem_singleton] at hc
      rcases hc with hc | rfl
      · exact ih c hc
      · exact digit_mem_lowerDigits (Nat.mod_lt _ (by decide))

/-- The first digit is a zero for zero only. -/
theorem head?_digits (n : Nat) : (digits n).head? = some '0' → n = 0 := by
  induction n using digits.induct with
  | case1 n hSmall =>
      intro hHead
      rw [digits_of_lt hSmall, List.head?_singleton, Option.some.injEq] at hHead
      exact (digit_eq_zero_iff hSmall).mp hHead
  | case2 n hLarge ih =>
      intro hHead
      rw [digits_of_le (Nat.not_lt.mp hLarge), head?_concat (digits_ne_nil _)] at hHead
      have hZero := ih hHead
      omega

theorem isNumeral_digits (n : Nat) : IsNumeral (digits n) n where
  lower := lower_digits n
  leading := by
    intro hHead
    rw [head?_digits n hHead]
    exact digits_of_lt (by decide)
  value := read?_digits n

/-- A numeral is the digits of its number.  Without its last digit it is a numeral again, and
that one is not zero, since then it would be a leading zero. -/
theorem IsNumeral.eq_digits {run : List Char} {n : Nat} (h : IsNumeral run n) :
    run = digits n := by
  induction run using List.reverseRecOn generalizing n with
  | nil => exact absurd h.value (by simp [Numeral.read?])
  | append_singleton rest c ih =>
      obtain ⟨v, hv, rfl⟩ := exists_digit (h.lower c (by simp))
      by_cases hRest : rest = []
      · subst hRest
        have hValue := h.value
        rw [List.nil_append, read?_singleton hv, Option.some.injEq] at hValue
        subst hValue
        exact (digits_of_lt hv).symm
      · have hValue := h.value
        rw [read?_concat hRest hv, Option.map_eq_some_iff] at hValue
        obtain ⟨m, hm, rfl⟩ := hValue
        have hNoZero : rest.head? ≠ some '0' := by
          intro hHead
          have hWhole := h.leading (by rw [head?_concat hRest, hHead])
          rcases List.append_eq_singleton_iff.mp hWhole with ⟨hNil, _⟩ | ⟨_, hNil⟩
          · exact hRest hNil
          · contradiction
        have hSelf : rest = digits m :=
          ih ⟨fun d hd => h.lower d (by simp [hd]), fun hHead => absurd hHead hNoZero, hm⟩
        have hPos : m ≠ 0 := by
          rintro rfl
          refine hNoZero ?_
          rw [hSelf, digits_of_lt (by decide)]
          rfl
        rw [digits_of_le (by omega)]
        have hDiv : (m * 16 + v) / 16 = m := by omega
        have hMod : (m * 16 + v) % 16 = v := by omega
        rw [hDiv, hMod, ← hSelf]

/-- A number has one numeral. -/
theorem isNumeral_iff {run : List Char} {n : Nat} : IsNumeral run n ↔ run = digits n := by
  constructor
  · exact IsNumeral.eq_digits
  · rintro rfl
    exact isNumeral_digits n

/-! ## Signed numbers -/

theorem toList_ofInt (i : Int) :
    (ofInt i).toList = (if i < 0 then ['-'] else []) ++ '0' :: 'x' :: digits i.natAbs := by
  unfold ofInt ofNat
  split
  · simp
  · simp

/-- One text is written for a number. -/
theorem isWritten_iff {text : String} {i : Int} : IsWritten text i ↔ text = ofInt i := by
  constructor
  · rintro ⟨run, hText, hNumeral⟩
    rw [isNumeral_iff.mp hNumeral, ← toList_ofInt] at hText
    exact String.toList_inj.mp hText
  · rintro rfl
    exact ⟨digits i.natAbs, toList_ofInt i, isNumeral_digits _⟩

theorem read?_ofInt (i : Int) : read? (ofInt i) = some i := by
  unfold read?
  rw [toList_ofInt]
  by_cases hNegative : i < 0
  · rw [if_pos hNegative]
    show (Numeral.read? 16 (digits i.natAbs)).map (fun n : Nat => -(n : Int)) = some i
    rw [read?_digits, Option.map_some]
    exact congrArg some (by omega)
  · rw [if_neg hNegative]
    show (Numeral.read? 16 (digits i.natAbs)).map (fun n : Nat => (n : Int)) = some i
    rw [read?_digits, Option.map_some]
    exact congrArg some (by omega)

/-- A number of 64 bits is written in one way: a minus sign if it is negative, the base marker,
and the lower-case digits of its magnitude, without a leading zero.  The text reads back as
the number, so that no two numbers share one. -/
theorem ofInt_readsBack :
    (∀ v : Imm, (∀ text, IsWritten text v.toInt ↔ text = ofInt v.toInt) ∧
      read? (ofInt v.toInt) = some v.toInt) ∧
    Function.Injective fun v : Imm => ofInt v.toInt := by
  refine ⟨fun v => ⟨fun text => isWritten_iff, read?_ofInt v.toInt⟩, fun v w hText => ?_⟩
  have hSame : some v.toInt = some w.toInt := by
    rw [← read?_ofInt v.toInt, ← read?_ofInt w.toInt]
    exact congrArg read? hText
  exact BitVec.eq_of_toInt_eq (Option.some.inj hSame)

/-- The least number of 64 bits. -/
example : ofInt (BitVec.intMin 64).toInt = "-0x8000000000000000" := by
  cbv

end OperandReport.Hex
