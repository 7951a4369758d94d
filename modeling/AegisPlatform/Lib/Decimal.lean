import Mathlib.Data.Int.Log
import Mathlib.Data.Rat.Floor
import Mathlib.Algebra.Order.Field.Rat
import Mathlib.Tactic.Linarith
import Mathlib.Tactic.Positivity
import Mathlib.Tactic.Ring
import Mathlib.Tactic.FieldSimp
import Mathlib.Tactic.NormNum

/-!
# Decimal arithmetic with a fixed number of significant digits

A decimal floating-point number stands for its value, a rational.  The result
of an operation is the exact result rounded to 28 significant digits, ties to
even, which is the default decimal context.

* `round` — the rounding; `add`, `sub`, `mul`, `div` and `sum` are the exact
  operations followed by it.
* `OnGrid k x` — `x` is a multiple of `10 ^ (-k)`.
* `round_eq_self`, `le_round`, `round_mono` — what the rounding keeps: numbers on a grid
  with at most 28 digits, every power of ten that was a lower bound, and order.
* `Tracks k r x` — the computed `r` is the exact amount `x`, unless both have
  left the range in which 28 digits reach the grid; `Tracks.add` and
  `Tracks.sum` carry it through additions, `Tracks.eq` reads it.
-/

/-- A decimal number, by its value. -/
abbrev Decimal := ℚ

namespace Decimal

/-! ## Rounding -/

/-- The integer nearest to a rational, ties to even. -/
def roundHalfEven (x : ℚ) : ℤ :=
  let rest := x - ⌊x⌋
  if rest < 1 / 2 then ⌊x⌋
  else if 1 / 2 < rest then ⌊x⌋ + 1
  else if ⌊x⌋ % 2 = 0 then ⌊x⌋ else ⌊x⌋ + 1

/-- The exponent of the last of the 28 digits of a number. -/
def lastExponent (x : ℚ) : ℤ := Int.log 10 |x| - 27

/-- Round to 28 significant digits. -/
def round (x : ℚ) : Decimal :=
  if x = 0 then 0 else (roundHalfEven (x / 10 ^ lastExponent x) : ℚ) * 10 ^ lastExponent x

/-- `a + b`. -/
def add (a b : Decimal) : Decimal := round (a + b)

/-- `a - b`. -/
def sub (a b : Decimal) : Decimal := round (a - b)

/-- `a * b`. -/
def mul (a b : Decimal) : Decimal := round (a * b)

/-- `a / b`. -/
def div (a b : Decimal) : Decimal := round (a / b)

/-- `sum(xs, start=Decimal("0"))`. -/
def sum (xs : List Decimal) : Decimal := xs.foldl add 0

theorem floor_le_roundHalfEven (x : ℚ) : ⌊x⌋ ≤ roundHalfEven x := by
  unfold roundHalfEven
  dsimp only
  split_ifs <;> omega

theorem roundHalfEven_intCast (n : ℤ) : roundHalfEven (n : ℚ) = n := by
  unfold roundHalfEven
  simp

theorem round_nonneg {x : ℚ} (h : 0 ≤ x) : 0 ≤ round x := by
  unfold round
  split
  · exact le_rfl
  · have hten : (0 : ℚ) < 10 ^ lastExponent x := zpow_pos (by norm_num) _
    have hfloor : 0 ≤ ⌊x / 10 ^ lastExponent x⌋ := Int.floor_nonneg.2 (div_nonneg h hten.le)
    have hint : (0 : ℚ) ≤ (roundHalfEven (x / 10 ^ lastExponent x) : ℚ) := by
      exact_mod_cast hfloor.trans (floor_le_roundHalfEven _)
    exact mul_nonneg hint hten.le

theorem roundHalfEven_nonpos {x : ℚ} (h : x ≤ 0) : roundHalfEven x ≤ 0 := by
  rcases h.eq_or_lt with rfl | hneg
  · exact (roundHalfEven_intCast 0).le
  · have hfloor : ⌊x⌋ < 0 := Int.floor_lt.2 (by exact_mod_cast hneg)
    unfold roundHalfEven
    dsimp only
    split_ifs <;> omega

theorem round_nonpos {x : ℚ} (h : x ≤ 0) : round x ≤ 0 := by
  unfold round
  split
  · exact le_rfl
  · have hten : (0 : ℚ) < 10 ^ lastExponent x := zpow_pos (by norm_num) _
    have hint : (roundHalfEven (x / 10 ^ lastExponent x) : ℚ) ≤ 0 := by
      exact_mod_cast roundHalfEven_nonpos (div_nonpos_of_nonpos_of_nonneg h hten.le)
    exact mul_nonpos_of_nonpos_of_nonneg hint hten.le

/-! ## Amounts on a grid -/

/-- A multiple of `10 ^ (-k)`. -/
def OnGrid (k : ℕ) (x : ℚ) : Prop := ∃ n : ℤ, x = n / 10 ^ k

theorem OnGrid.zero (k : ℕ) : OnGrid k 0 := ⟨0, by simp⟩

theorem OnGrid.add {k : ℕ} {x y : ℚ} (hx : OnGrid k x) (hy : OnGrid k y) : OnGrid k (x + y) := by
  obtain ⟨m, rfl⟩ := hx
  obtain ⟨n, rfl⟩ := hy
  exact ⟨m + n, by push_cast; ring⟩

/-- What has been rounded is on some grid. -/
theorem onGrid_round (x : ℚ) : ∃ k, OnGrid k (round x) := by
  unfold round
  by_cases hx : x = 0
  · rw [if_pos hx]
    exact ⟨0, .zero 0⟩
  · rw [if_neg hx]
    generalize roundHalfEven (x / 10 ^ lastExponent x) = n
    rcases Int.eq_nat_or_neg (lastExponent x) with ⟨k, hk | hk⟩
    · exact ⟨0, n * 10 ^ k, by rw [hk]; push_cast; simp⟩
    · exact ⟨k, n, by rw [hk, zpow_neg, zpow_natCast]; field_simp⟩

/-- A number on a grid that 28 digits reach is not rounded. -/
theorem round_eq_self {k : ℕ} {x : ℚ} (hg : OnGrid k x) (h0 : 0 ≤ x) (hlt : x * 10 ^ k < 10 ^ 28) :
    round x = x := by
  unfold round
  rcases h0.eq_or_lt with rfl | hpos
  · simp
  obtain ⟨n, rfl⟩ := hg
  set x : ℚ := (n : ℚ) / 10 ^ k with hx
  have hk : (0 : ℚ) < 10 ^ k := by positivity
  -- the last digit kept lies at or below the grid
  have hlog : Int.log 10 x < 28 - (k : ℤ) := by
    rw [← Int.lt_zpow_iff_log_lt (by norm_num) hpos]
    have hpow : ((10 : ℕ) : ℚ) ^ (28 - (k : ℤ)) = 10 ^ 28 / 10 ^ k := by
      rw [Nat.cast_ofNat, zpow_sub₀ (by norm_num), zpow_natCast]; norm_num
    rw [hpow, lt_div_iff₀ hk]
    exact hlt
  have habs : |x| = x := abs_of_pos hpos
  have hexp : 0 ≤ -(k : ℤ) - lastExponent x := by unfold lastExponent; rw [habs]; omega
  obtain ⟨j, hj⟩ := Int.eq_ofNat_of_zero_le hexp
  have hscaled : x / 10 ^ lastExponent x = ((n * 10 ^ j : ℤ) : ℚ) := by
    have he : lastExponent x = -(k : ℤ) - j := by omega
    rw [he, hx, zpow_sub₀ (by norm_num), zpow_neg, zpow_natCast, zpow_natCast]
    push_cast
    field_simp
  rw [if_neg hpos.ne', hscaled, roundHalfEven_intCast, ← hscaled, div_mul_cancel₀]
  exact zpow_ne_zero _ (by norm_num)

/-- Rounding does not cross a power of ten downwards. -/
theorem le_round {m : ℤ} {x : ℚ} (h : (10 : ℚ) ^ m ≤ x) : (10 : ℚ) ^ m ≤ round x := by
  have hpos : 0 < x := lt_of_lt_of_le (zpow_pos (by norm_num) m) h
  unfold round
  rw [if_neg hpos.ne']
  have habs : |x| = x := abs_of_pos hpos
  have hten : (0 : ℚ) < 10 ^ lastExponent x := zpow_pos (by norm_num) _
  have hm : m ≤ Int.log 10 x := by
    rw [← Int.zpow_le_iff_le_log (by norm_num) hpos]
    exact_mod_cast h
  have hlog : (10 : ℚ) ^ (27 : ℤ) * 10 ^ lastExponent x ≤ x := by
    rw [← zpow_add₀ (by norm_num)]
    have hsum : 27 + lastExponent x = Int.log 10 x := by unfold lastExponent; rw [habs]; omega
    rw [hsum]
    exact_mod_cast Int.zpow_log_le_self (by norm_num) hpos
  have hfloor : (10 : ℤ) ^ 27 ≤ ⌊x / 10 ^ lastExponent x⌋ := by
    rw [Int.le_floor, le_div_iff₀ hten]
    push_cast
    exact_mod_cast hlog
  have hint : (10 : ℚ) ^ 27 ≤ (roundHalfEven (x / 10 ^ lastExponent x) : ℚ) := by
    exact_mod_cast hfloor.trans (floor_le_roundHalfEven _)
  calc (10 : ℚ) ^ m ≤ 10 ^ Int.log 10 x := zpow_le_zpow_right₀ (by norm_num) hm
    _ = 10 ^ 27 * 10 ^ lastExponent x := by
        rw [← zpow_natCast, ← zpow_add₀ (by norm_num)]
        congr 1
        unfold lastExponent; rw [habs]; push_cast; omega
    _ ≤ _ := by gcongr

/-! ## Order -/

theorem roundHalfEven_le_floor_add_one (x : ℚ) : roundHalfEven x ≤ ⌊x⌋ + 1 := by
  unfold roundHalfEven
  dsimp only
  split_ifs <;> omega

theorem roundHalfEven_mono {x y : ℚ} (h : x ≤ y) : roundHalfEven x ≤ roundHalfEven y := by
  rcases (Int.floor_mono h).eq_or_lt with hsame | hlt
  · -- between the same two integers only the rest counts
    unfold roundHalfEven
    dsimp only
    rw [← hsame]
    split_ifs <;> first | omega | linarith
  · exact (roundHalfEven_le_floor_add_one x).trans
      ((Int.add_one_le_iff.2 hlt).trans (floor_le_roundHalfEven y))

/-- Rounding does not cross a power of ten upwards. -/
theorem round_le {m : ℤ} {x : ℚ} (h0 : 0 < x) (h : x < (10 : ℚ) ^ m) : round x ≤ (10 : ℚ) ^ m := by
  have habs : |x| = x := abs_of_pos h0
  have hten : (0 : ℚ) < 10 ^ lastExponent x := zpow_pos (by norm_num) _
  have hlog : Int.log 10 x < m := by
    rw [← Int.lt_zpow_iff_log_lt (by norm_num) h0]
    exact_mod_cast h
  have hbound : x < 10 ^ (28 : ℤ) * 10 ^ lastExponent x := by
    rw [← zpow_add₀ (by norm_num)]
    have hsum : 28 + lastExponent x = Int.log 10 x + 1 := by unfold lastExponent; rw [habs]; omega
    rw [hsum]
    exact_mod_cast Int.lt_zpow_succ_log_self (by norm_num) x
  have hscaled : x / 10 ^ lastExponent x ≤ ((10 ^ 28 : ℤ) : ℚ) := by
    rw [div_le_iff₀ hten]
    push_cast
    exact_mod_cast hbound.le
  have hint : (roundHalfEven (x / 10 ^ lastExponent x) : ℚ) ≤ 10 ^ (28 : ℤ) := by
    have hle := roundHalfEven_mono hscaled
    rw [roundHalfEven_intCast] at hle
    exact_mod_cast hle
  unfold round
  rw [if_neg h0.ne']
  calc _ ≤ (10 : ℚ) ^ (28 : ℤ) * 10 ^ lastExponent x := by gcongr
    _ = 10 ^ (Int.log 10 x + 1) := by
        rw [← zpow_add₀ (by norm_num)]
        congr 1
        unfold lastExponent; rw [habs]; omega
    _ ≤ 10 ^ m := zpow_le_zpow_right₀ (by norm_num) (by omega)

/-- Rounding keeps the order of amounts. -/
theorem round_mono {x y : ℚ} (h0 : 0 ≤ x) (h : x ≤ y) : round x ≤ round y := by
  rcases h0.eq_or_lt with rfl | hpos
  · rw [round, if_pos rfl]
    exact round_nonneg h
  have hpos' : 0 < y := lt_of_lt_of_le hpos h
  rcases (Int.log_mono_right hpos h : Int.log 10 x ≤ Int.log 10 y).eq_or_lt with hsame | hlt
  · have hexp : lastExponent x = lastExponent y := by
      unfold lastExponent
      rw [abs_of_pos hpos, abs_of_pos hpos', hsame]
    have hten : (0 : ℚ) < 10 ^ lastExponent y := zpow_pos (by norm_num) _
    have hint : (roundHalfEven (x / 10 ^ lastExponent y) : ℚ) ≤
        roundHalfEven (y / 10 ^ lastExponent y) := by
      exact_mod_cast roundHalfEven_mono ((div_le_div_iff_of_pos_right hten).2 h)
    unfold round
    rw [if_neg hpos.ne', if_neg hpos'.ne', hexp]
    exact mul_le_mul_of_nonneg_right hint hten.le
  · -- a power of ten lies between them
    have hx : x < (10 : ℚ) ^ Int.log 10 y := by
      have := (Int.lt_zpow_iff_log_lt (R := ℚ) (b := 10) (by norm_num) hpos).2 hlt
      exact_mod_cast this
    have hy : (10 : ℚ) ^ Int.log 10 y ≤ y := by
      exact_mod_cast Int.zpow_log_le_self (b := 10) (by norm_num) hpos'
    exact (round_le hpos hx).trans (le_round hy)

theorem add_mono {a b c d : ℚ} (ha : 0 ≤ a) (hb : 0 ≤ b) (hac : a ≤ c) (hbd : b ≤ d) :
    add a b ≤ add c d :=
  round_mono (add_nonneg ha hb) (add_le_add hac hbd)

/-! ## Running sums -/

/-- `r` is a computed value of the exact amount `x`: the two agree, or both have
reached `10 ^ (28 - k)`. -/
structure Tracks (k : ℕ) (r x : ℚ) : Prop where
  nonneg : 0 ≤ x
  onGrid : OnGrid k x
  agrees : (r = x ∧ x < 10 ^ (28 - (k : ℤ))) ∨
    ((10 : ℚ) ^ (28 - (k : ℤ)) ≤ r ∧ (10 : ℚ) ^ (28 - (k : ℤ)) ≤ x)

theorem lt_bound_iff {k : ℕ} {x : ℚ} :
    x < (10 : ℚ) ^ (28 - (k : ℤ)) ↔ x * 10 ^ k < 10 ^ 28 := by
  have hk : (0 : ℚ) < 10 ^ k := by positivity
  have hpow : (10 : ℚ) ^ (28 - (k : ℤ)) = 10 ^ 28 / 10 ^ k := by
    rw [zpow_sub₀ (by norm_num), zpow_natCast]; norm_num
  rw [hpow, lt_div_iff₀ hk]

theorem Tracks.of_onGrid {k : ℕ} {x : ℚ} (hg : OnGrid k x) (h0 : 0 ≤ x) : Tracks k x x := by
  refine ⟨h0, hg, ?_⟩
  rcases lt_or_ge x (10 ^ (28 - (k : ℤ))) with h | h
  · exact Or.inl ⟨rfl, h⟩
  · exact Or.inr ⟨h, h⟩

theorem Tracks.nonneg_left {k : ℕ} {r x : ℚ} (h : Tracks k r x) : 0 ≤ r := by
  rcases h.agrees with ⟨rfl, -⟩ | ⟨hr, -⟩
  · exact h.nonneg
  · exact (zpow_pos (by norm_num) _).le.trans hr

theorem Tracks.add {k : ℕ} {r s x y : ℚ} (hx : Tracks k r x) (hy : Tracks k s y) :
    Tracks k (Decimal.add r s) (x + y) := by
  refine ⟨add_nonneg hx.nonneg hy.nonneg, hx.onGrid.add hy.onGrid, ?_⟩
  have hr := hx.nonneg_left
  have hs := hy.nonneg_left
  have hx0 := hx.nonneg
  have hy0 := hy.nonneg
  -- once one of the two is out of range, so is the sum, rounded or not
  have hover : (10 : ℚ) ^ (28 - (k : ℤ)) ≤ r + s →
      (10 : ℚ) ^ (28 - (k : ℤ)) ≤ Decimal.add r s := fun h => le_round h
  rcases hx.agrees with ⟨rfl, -⟩ | ⟨hrb, hxb⟩
  · rcases hy.agrees with ⟨rfl, -⟩ | ⟨hsb, hyb⟩
    · rcases lt_or_ge (r + s) (10 ^ (28 - (k : ℤ))) with h | h
      · refine Or.inl ⟨?_, h⟩
        exact round_eq_self (hx.onGrid.add hy.onGrid) (add_nonneg hr hs) (lt_bound_iff.1 h)
      · exact Or.inr ⟨hover h, h⟩
    · exact Or.inr ⟨hover (by linarith), by linarith⟩
  · exact Or.inr ⟨hover (by linarith), by linarith⟩

theorem Tracks.sum {k : ℕ} {xs : List Decimal} (h : ∀ x ∈ xs, OnGrid k x ∧ 0 ≤ x) :
    Tracks k (Decimal.sum xs) xs.sum := by
  have hfold : ∀ (xs : List Decimal) (r x : ℚ), (∀ x ∈ xs, OnGrid k x ∧ 0 ≤ x) → Tracks k r x →
      Tracks k (xs.foldl Decimal.add r) (x + xs.sum) := by
    intro xs
    induction xs with
    | nil => intro r x _ hr; simpa using hr
    | cons y ys ih =>
      intro r x hys hr
      obtain ⟨hy, hy0⟩ := hys y (List.mem_cons_self ..)
      have hnext := ih (Decimal.add r y) (x + y) (fun z hz => hys z (List.mem_cons_of_mem _ hz))
        (hr.add (.of_onGrid hy hy0))
      simpa [add_assoc] using hnext
  have hzero := hfold xs 0 0 h (.of_onGrid (.zero k) le_rfl)
  simpa [Decimal.sum] using hzero

/-- A computed value below the range's end is exact. -/
theorem Tracks.eq {k : ℕ} {r x : ℚ} (h : Tracks k r x) (hr : r < 10 ^ (28 - (k : ℤ))) :
    r = x := by
  rcases h.agrees with ⟨heq, -⟩ | ⟨hb, -⟩
  · exact heq
  · exact absurd hr (not_lt.2 hb)

/-- Within the range a computed value compares as the exact one does. -/
theorem Tracks.le_iff {k : ℕ} {r x limit : ℚ} (h : Tracks k r x)
    (hlimit : limit < 10 ^ (28 - (k : ℤ))) : r ≤ limit ↔ x ≤ limit := by
  rcases h.agrees with ⟨rfl, -⟩ | ⟨hr, hx⟩
  · exact Iff.rfl
  · exact ⟨fun hle => absurd (hlimit.trans_le hr) (not_lt.2 hle),
      fun hle => absurd (hlimit.trans_le hx) (not_lt.2 hle)⟩

end Decimal
