import Mathlib.Algebra.Order.BigOperators.Group.List
import Mathlib.Algebra.Order.Group.MinMax
import Mathlib.Data.List.Basic

/-!
# Accounts with reservations

Amounts are set aside before they are spent: an entry of an account holds its
limit until it is settled, and from then on counts what was charged, which may
exceed the limit.  The account is *covered* when what its entries hold and have
been charged stays within the account's own limit, overage apart.

* `Entry.weight` — what an entry counts without its overage; it is never more
  than the limit, and `covered_iff` says the account is covered when the weights
  fit.
* `covered_admission`, `covered_append_free`, `covered_replace`, `covered_of_le` —
  admission, here and to another account, settlement, and entries that go out of
  scope.
* `sum_filter` — sums over selected entries are sums over all of them.
-/

namespace Account

variable {M : Type} [AddCommGroup M] [LinearOrder M]

/-- What became of an amount that was set aside. -/
inductive Entry (M : Type) where
  /-- It is still set aside. -/
  | held (limit : M)
  /-- It was settled by a charge. -/
  | spent (limit charge : M)
  /-- It does not count. -/
  | free

namespace Entry

/-- What an entry counts. -/
def amount : Entry M → M
  | held limit => limit
  | spent _ charge => charge
  | free => 0

/-- What was charged beyond the limit. -/
def overage : Entry M → M
  | spent limit charge => max 0 (charge - limit)
  | _ => 0

/-- What an entry counts without its overage. -/
def weight (e : Entry M) : M := e.amount - e.overage

theorem weight_held (limit : M) : (held limit).weight = limit := sub_zero limit

theorem weight_free : (free : Entry M).weight = 0 := sub_zero 0

end Entry

/-- What the entries count. -/
def total (es : List (Entry M)) : M := (es.map Entry.amount).sum

/-- What was charged beyond the limits. -/
def overage (es : List (Entry M)) : M := (es.map Entry.overage).sum

/-- The account stays within its limit, overage apart. -/
def Covered (limit : M) (es : List (Entry M)) : Prop := total es ≤ limit + overage es

/-! ## Sums over selected entries -/

omit [LinearOrder M] in
theorem sum_filter {α : Type} (p : α → Bool) (f : α → M) (xs : List α) :
    ((xs.filter p).map f).sum = (xs.map fun x => if p x then f x else 0).sum := by
  induction xs with
  | nil => rfl
  | cons x xs ih =>
    by_cases hp : p x
    · simp [hp, ih]
    · simp [hp, ih]

variable [IsOrderedAddMonoid M]

/-! ## Weights -/

namespace Entry

theorem weight_spent (limit charge : M) : (spent limit charge).weight = min limit charge := by
  change charge - max 0 (charge - limit) = min limit charge
  rcases le_total charge limit with h | h
  · rw [max_eq_left (sub_nonpos.2 h), sub_zero, min_eq_right h]
  · rw [max_eq_right (sub_nonneg.2 h), sub_sub_cancel, min_eq_left h]

theorem weight_le_amount (e : Entry M) : e.weight ≤ e.amount := by
  refine sub_le_self _ ?_
  cases e with
  | spent limit charge => exact le_max_left _ _
  | _ => exact le_rfl

end Entry

omit [IsOrderedAddMonoid M] in
theorem sum_weight (es : List (Entry M)) :
    (es.map Entry.weight).sum = total es - overage es := by
  unfold total overage Entry.weight
  induction es with
  | nil => simp
  | cons e es ih =>
    simp only [List.map_cons, List.sum_cons, ih]
    rw [add_sub_add_comm]

theorem covered_iff {limit : M} {es : List (Entry M)} :
    Covered limit es ↔ (es.map Entry.weight).sum ≤ limit := by
  rw [sum_weight, sub_le_iff_le_add]
  rfl

/-! ## What keeps an account covered -/

/-- Admission: an amount that fits with everything counted so far. -/
theorem covered_admission {limit amount : M} {es : List (Entry M)} (h : total es + amount ≤ limit) :
    Covered limit (es ++ [.held amount]) := by
  rw [covered_iff, List.map_append, List.sum_append]
  have hle : (es.map Entry.weight).sum ≤ total es :=
    List.sum_le_sum fun e _ => e.weight_le_amount
  calc (es.map Entry.weight).sum + ([Entry.held amount].map Entry.weight).sum
      = (es.map Entry.weight).sum + amount := by simp [Entry.weight_held]
    _ ≤ total es + amount := by gcongr
    _ ≤ limit := h

/-- An entry that does not count. -/
theorem covered_append_free {limit : M} {es : List (Entry M)} (h : Covered limit es) :
    Covered limit (es ++ [.free]) := by
  rw [covered_iff] at h ⊢
  simpa [Entry.weight_free] using h

/-- Entry by entry no heavier: an account that was covered is. -/
theorem covered_of_le {α : Type} {limit : M} {f g : α → Entry M} {xs : List α}
    (h : Covered limit (xs.map f)) (hle : ∀ x ∈ xs, (g x).weight ≤ (f x).weight) :
    Covered limit (xs.map g) := by
  rw [covered_iff, List.map_map] at h ⊢
  exact (List.sum_le_sum hle).trans h

/-- Settlement: one entry is replaced by one that is no heavier. -/
theorem covered_replace {limit : M} {e e' : Entry M} {left right : List (Entry M)}
    (h : Covered limit (left ++ e :: right)) (hle : e'.weight ≤ e.weight) :
    Covered limit (left ++ e' :: right) := by
  rw [covered_iff] at h ⊢
  simp only [List.map_append, List.map_cons, List.sum_append, List.sum_cons] at h ⊢
  refine le_trans ?_ h
  gcongr

end Account
