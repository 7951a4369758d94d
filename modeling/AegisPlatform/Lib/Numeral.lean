import Mathlib.Data.Int.Notation
import Mathlib.Data.Nat.Notation
import Mathlib.Data.Rat.Lemmas
import Mathlib.Tactic.Basic

/-!
# Decimal numerals

How a number is written, digit by digit, and read back.

* `Numeral.natural`, `Numeral.integer` — the digits of a number; `Numeral.fraction` — those of a
  fraction, which is an integer if it can be.
* `Numeral.readNatural`, `Numeral.readInteger`, `Numeral.readFraction` — the number a text stands
  for, if it is one.
* `readInteger_integer`, `readFraction_fraction` — what was written is read back.
-/

namespace Numeral

/-- The digits of a natural number. -/
def natural (n : ℕ) : List Char := Nat.toDigits 10 n

/-- The digits of an integer, after its sign. -/
def integer : ℤ → List Char
  | .ofNat n => natural n
  | .negSucc n => '-' :: natural (n + 1)

/-- The natural number a text of digits stands for. -/
def readNatural (text : List Char) : Option ℕ :=
  if text ≠ [] ∧ text.all Char.isDigit then some (Nat.ofDigitChars 10 text 0) else none

/-- The integer a text stands for: digits, after a sign or after none. -/
def readInteger : List Char → Option ℤ
  | '-' :: digits => (readNatural digits).map fun n => -(n : ℤ)
  | digits => (readNatural digits).map fun n => (n : ℤ)

theorem isDigit_of_mem_natural {n : ℕ} {c : Char} (h : c ∈ natural n) : c.isDigit = true :=
  Nat.isDigit_of_mem_toDigits (by decide) (by decide) h

theorem natural_ne_nil (n : ℕ) : natural n ≠ [] := Nat.toDigits_ne_nil

theorem readNatural_natural (n : ℕ) : readNatural (natural n) = some n := by
  have hdigits : (natural n).all Char.isDigit = true :=
    List.all_eq_true.2 fun _ h => isDigit_of_mem_natural h
  rw [readNatural, if_pos ⟨natural_ne_nil n, hdigits⟩]
  exact congrArg some Nat.ofDigitChars_ten_toDigits

/-- A number without a sign does not start with one. -/
theorem natural_ne_minus (n : ℕ) (rest : List Char) : natural n ≠ '-' :: rest := by
  intro h
  have hminus : '-' ∈ natural n := by
    rw [h]
    exact List.mem_cons_self ..
  exact absurd (isDigit_of_mem_natural hminus) (by decide)

/-- The digits of a positive number do not start with a zero. -/
theorem natural_head_ne_zero {n : ℕ} (hn : 0 < n) {c : Char} {rest : List Char}
    (h : natural n = c :: rest) : c ≠ '0' := by
  induction n using Nat.strong_induction_on generalizing c rest with
  | _ n ih =>
    by_cases hlt : n < 10
    · have hall : ∀ n < 10, 0 < n → n.digitChar ≠ '0' := by decide
      rw [natural, Nat.toDigits_of_lt_base hlt] at h
      rw [← (List.cons.inj h).1]
      exact hall n hlt hn
    · rw [natural, Nat.toDigits_of_base_le (by decide) (not_lt.1 hlt)] at h
      obtain ⟨d, ds, hds⟩ := List.exists_cons_of_ne_nil (natural_ne_nil (n / 10))
      rw [natural] at hds
      rw [hds, List.cons_append] at h
      rw [← (List.cons.inj h).1]
      exact ih (n / 10) (Nat.div_lt_self hn (by decide)) (Nat.div_pos (not_lt.1 hlt) (by decide)) hds

/-- A zero is the only digit of its number, or not the first. -/
theorem natural_zero_cons {n : ℕ} {rest : List Char} (h : natural n = '0' :: rest) : rest = [] := by
  rcases Nat.eq_zero_or_pos n with rfl | hn
  · exact (List.cons.inj h).2.symm
  · exact absurd rfl (natural_head_ne_zero hn h)

/-- **What was written is read back.** -/
theorem readInteger_integer (n : ℤ) : readInteger (integer n) = some n := by
  cases n with
  | ofNat n =>
    have hdigits : readInteger (natural n) = (readNatural (natural n)).map fun n => (n : ℤ) := by
      unfold readInteger
      split
      · rename_i rest h
        exact absurd h (natural_ne_minus n rest)
      · rfl
    rw [integer, hdigits, readNatural_natural]
    rfl
  | negSucc n =>
    simp only [integer, readInteger, readNatural_natural]
    rfl

/-! ## Fractions -/

/-- An integer, or a fraction in lowest terms. -/
def fraction (x : ℚ) : List Char :=
  integer x.num ++ if x.den = 1 then [] else '/' :: natural x.den

/-- The fraction a text stands for. -/
def readFraction (text : List Char) : Option ℚ := do
  let num ← readInteger (text.takeWhile (· ≠ '/'))
  match text.dropWhile (· ≠ '/') with
  | [] => some num
  | _ :: digits => do
    let den ← readNatural digits
    return num / den

/-- A number is written with digits and a minus sign. -/
theorem ne_of_mem_integer {d : Char} (hdigit : d.isDigit = false) (hminus : d ≠ '-') {n : ℤ}
    {c : Char} (h : c ∈ integer n) : c ≠ d := by
  rintro rfl
  cases n with
  | ofNat n => exact absurd (isDigit_of_mem_natural h) (by rw [hdigit]; exact Bool.false_ne_true)
  | negSucc n =>
    rcases List.mem_cons.1 h with h | h
    · exact hminus h
    · exact absurd (isDigit_of_mem_natural h) (by rw [hdigit]; exact Bool.false_ne_true)

theorem integer_injective {m n : ℤ} (h : integer m = integer n) : m = n := by
  have hread := readInteger_integer m
  rw [h, readInteger_integer, Option.some.injEq] at hread
  exact hread.symm

/-- **What was written is read back.** -/
theorem readFraction_fraction (x : ℚ) : readFraction (fraction x) = some x := by
  have hint : ∀ c ∈ integer x.num, decide (c ≠ '/') = true :=
    fun c hc => decide_eq_true (ne_of_mem_integer (by decide) (by decide) hc)
  unfold readFraction fraction
  rw [List.takeWhile_append_of_pos hint, List.dropWhile_append_of_pos hint]
  by_cases hden : x.den = 1
  · rw [if_pos hden, List.takeWhile_nil, List.dropWhile_nil, List.append_nil, readInteger_integer]
    exact congrArg some (Rat.den_eq_one_iff x |>.1 hden)
  · rw [if_neg hden, List.takeWhile_cons_of_neg (by simp), List.dropWhile_cons_of_neg (by simp),
      List.append_nil, readInteger_integer]
    simp only [Option.bind_eq_bind, Option.bind_some, readNatural_natural]
    exact congrArg some x.num_div_den

theorem fraction_ne_nil (x : ℚ) : fraction x ≠ [] := by
  intro h
  have hread := readFraction_fraction x
  rw [h] at hread
  cases hread

end Numeral
