import Mathlib.Algebra.Order.Ring.Int

/-!
# Months of the Gregorian calendar

Days are counted from 1970-01-01.  `ord2ymd` is the proleptic Gregorian
calendar; `monthStart` is the midnight at which the month of an instant began,
found by walking back to a day whose day of the month is one.

* `monthStart_mono` — later instants do not belong to earlier months.
-/

namespace Calendar

/-- Days before each month of a common year. -/
def daysBeforeMonth (month : ℤ) : ℤ :=
  [0, 31, 59, 90, 120, 151, 181, 212, 243, 273, 304, 334].getD (month - 1).toNat 0

/-- Year, month and day of a day counted from 0001-01-01, which is day one. -/
def ord2ymd (ordinal : ℤ) : ℤ × ℤ × ℤ :=
  let n := ordinal - 1
  let n400 := n / 146097
  let n := n % 146097
  let n100 := n / 36524
  let n := n % 36524
  let n4 := n / 1461
  let n := n % 1461
  let n1 := n / 365
  let n := n % 365
  let year := n400 * 400 + 1 + n100 * 100 + n4 * 4 + n1
  if n1 = 4 ∨ n100 = 4 then (year - 1, 12, 31)
  else
    let leap : ℤ := if n1 = 3 ∧ (n4 ≠ 24 ∨ n100 = 3) then 1 else 0
    let preceding (month : ℤ) : ℤ := daysBeforeMonth month + if 2 < month then leap else 0
    -- the estimate is the month or the one after it
    let month := (n + 50) / 32
    let month := if n < preceding month then month - 1 else month
    (year, month, n - preceding month + 1)

/-- Day of the month of a day counted from 1970-01-01. -/
def dayOfMonth (day : ℤ) : ℤ := (ord2ymd (day + 719163)).2.2

/-- Walk back from a day, at most `fuel` days, to the first of a month. -/
def firstOfMonth : ℕ → ℤ → ℤ
  | 0, day => day
  | fuel + 1, day => if dayOfMonth day = 1 then day else firstOfMonth fuel (day - 1)

/-- Microseconds in a day. -/
def microsPerDay : ℤ := 86400000000

/-- The beginning of the month of an instant, both in microseconds. -/
def monthStart (t : ℤ) : ℤ := firstOfMonth 30 (t / microsPerDay) * microsPerDay

theorem firstOfMonth_le (fuel : ℕ) (day : ℤ) : firstOfMonth fuel day ≤ day := by
  induction fuel generalizing day with
  | zero => exact le_rfl
  | succ fuel ih =>
    rw [firstOfMonth]
    split
    · exact le_rfl
    · have := ih (day - 1)
      omega

theorem sub_fuel_le_firstOfMonth (fuel : ℕ) (day : ℤ) : day - fuel ≤ firstOfMonth fuel day := by
  induction fuel generalizing day with
  | zero => simp [firstOfMonth]
  | succ fuel ih =>
    rw [firstOfMonth]
    split
    · omega
    · have := ih (day - 1)
      push_cast
      omega

/-- The walk stops at the last first of a month within its reach. -/
theorem le_firstOfMonth {fuel : ℕ} {day first : ℤ} (hfirst : dayOfMonth first = 1)
    (hle : first ≤ day) (hreach : day - fuel ≤ first) : first ≤ firstOfMonth fuel day := by
  induction fuel generalizing day with
  | zero => simpa [firstOfMonth] using hle
  | succ fuel ih =>
    rw [firstOfMonth]
    split
    · exact hle
    · next hne =>
      have hlt : first ≠ day := fun heq => hne (heq ▸ hfirst)
      exact ih (by omega) (by push_cast at hreach; omega)

/-- Where the walk stops there is the first of a month, unless the fuel ran out. -/
theorem firstOfMonth_cases (fuel : ℕ) (day : ℤ) :
    dayOfMonth (firstOfMonth fuel day) = 1 ∨ firstOfMonth fuel day = day - fuel := by
  induction fuel generalizing day with
  | zero => right; simp [firstOfMonth]
  | succ fuel ih =>
    rw [firstOfMonth]
    split
    · next h => exact Or.inl h
    · rcases ih (day - 1) with h | h
      · exact Or.inl h
      · right; rw [h]; push_cast; omega

theorem firstOfMonth_mono (fuel : ℕ) {day day' : ℤ} (hle : day ≤ day') :
    firstOfMonth fuel day ≤ firstOfMonth fuel day' := by
  have hlow := sub_fuel_le_firstOfMonth fuel day'
  have hday := firstOfMonth_le fuel day
  rcases firstOfMonth_cases fuel day with hfirst | hfuel
  · rcases le_total (day' - fuel) (firstOfMonth fuel day) with h | h
    · exact le_firstOfMonth hfirst (hday.trans hle) h
    · exact h.trans hlow
  · rw [hfuel]; omega

theorem monthStart_mono {t t' : ℤ} (hle : t ≤ t') : monthStart t ≤ monthStart t' := by
  have hday : t / microsPerDay ≤ t' / microsPerDay := Int.ediv_le_ediv (by decide) hle
  exact Int.mul_le_mul_of_nonneg_right (firstOfMonth_mono 30 hday) (by decide)

/-- 29 February 2024, noon: the month began on 1 February. -/
example : monthStart (19782 * microsPerDay + 43200000000) = 19754 * microsPerDay := by decide

end Calendar
