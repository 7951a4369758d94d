import Mathlib.Data.List.Basic

/-!
# Search and replace

A `Matcher` says of a place in a list, from the element before it and the list after it, how
long a match starts there.

* `search`, `sub` — is there a match, and the matches replaced from left to right, each search
  going on after the match before it.
* `sub_of_not_search` — without a match nothing changes.
* `Clear` — no match starts in a piece of the list: `sub_clear` and `search_clear` step over it.
* `sub_match` — one match is replaced.
-/

namespace Substitution

variable {α : Type*}

/-- How long a match starts at a place, if one does. -/
abbrev Matcher (α : Type*) := Option α → List α → Option ℕ

/-- Does a match start anywhere? -/
def search (m : Matcher α) : Option α → List α → Bool
  | _, [] => false
  | prev, a :: l => (m prev (a :: l)).isSome || search m (some a) l

/-- The matches replaced.  The number is what is left of the match under way. -/
def sub (m : Matcher α) (replacement : List α) : Option α → ℕ → List α → List α
  | _, _, [] => []
  | _, skip + 1, a :: l => sub m replacement (some a) skip l
  | prev, 0, a :: l =>
    match m prev (a :: l) with
    | some n => replacement ++ sub m replacement (some a) (n - 1) l
    | none => a :: sub m replacement (some a) 0 l

/-- The element before the place after a piece. -/
def before (prev : Option α) : List α → Option α
  | [] => prev
  | a :: l => before (some a) l

/-- No match starts in the first piece. -/
def Clear (m : Matcher α) : Option α → List α → List α → Prop
  | _, [], _ => True
  | prev, a :: u, l => m prev (a :: u ++ l) = none ∧ Clear m (some a) u l

variable {m : Matcher α} {replacement : List α} {prev prev' : Option α} {u l : List α}

theorem before_append (prev : Option α) (u v : List α) :
    before prev (u ++ v) = before (before prev u) v := by
  induction u generalizing prev with
  | nil => rfl
  | cons a u ih => exact ih (some a)

theorem before_concat (prev : Option α) (u : List α) (a : α) : before prev (u ++ [a]) = some a := by
  rw [before_append]
  rfl

theorem before_of_getLast? {a : α} (h : u.getLast? = some a) : before prev u = some a := by
  obtain ⟨v, rfl⟩ := List.getLast?_eq_some_iff.mp h
  exact before_concat prev v a

/-- **Without a match nothing changes.** -/
theorem sub_of_not_search (h : search m prev l = false) : sub m replacement prev 0 l = l := by
  induction l generalizing prev with
  | nil => rfl
  | cons a l ih =>
    rw [search, Bool.or_eq_false_iff, Option.isSome_eq_false_iff, Option.isNone_iff_eq_none] at h
    rw [sub, h.1]
    exact congrArg (a :: ·) (ih h.2)

/-- What came before is looked at by the matcher only. -/
theorem sub_congr (h : m prev l = m prev' l) :
    sub m replacement prev 0 l = sub m replacement prev' 0 l := by
  cases l with
  | nil => rfl
  | cons a l => rw [sub, sub, h]

theorem search_congr (h : m prev l = m prev' l) : search m prev l = search m prev' l := by
  cases l with
  | nil => rfl
  | cons a l => rw [search, search, h]

theorem sub_clear (h : Clear m prev u l) :
    sub m replacement prev 0 (u ++ l) = u ++ sub m replacement (before prev u) 0 l := by
  induction u generalizing prev with
  | nil => rfl
  | cons a u ih =>
    obtain ⟨hnone, hrest⟩ := h
    rw [List.cons_append, sub, ← List.cons_append, hnone]
    exact congrArg (a :: ·) (ih hrest)

theorem search_clear (h : Clear m prev u l) :
    search m prev (u ++ l) = search m (before prev u) l := by
  induction u generalizing prev with
  | nil => rfl
  | cons a u ih =>
    obtain ⟨hnone, hrest⟩ := h
    rw [List.cons_append, search, ← List.cons_append, hnone]
    exact ih hrest

/-- A piece is clear when no match starts at any of its places. -/
theorem clear_of_forall
    (h : ∀ v w, u = v ++ w → w ≠ [] → m (before prev v) (w ++ l) = none) : Clear m prev u l := by
  induction u generalizing prev with
  | nil => trivial
  | cons a u ih =>
    refine ⟨h [] (a :: u) rfl (List.cons_ne_nil a u), ih fun v w huv hw => ?_⟩
    exact h (a :: v) w (congrArg (a :: ·) huv) hw

theorem sub_skip (x : List α) :
    sub m replacement prev x.length (x ++ l) = sub m replacement (before prev x) 0 l := by
  induction x generalizing prev with
  | nil => rfl
  | cons a x ih => exact ih

/-- One match is replaced. -/
theorem sub_match {x : List α} (hx : x ≠ []) (h : m prev (x ++ l) = some x.length) :
    sub m replacement prev 0 (x ++ l) =
      replacement ++ sub m replacement (before prev x) 0 l := by
  cases x with
  | nil => exact absurd rfl hx
  | cons a x =>
    rw [List.cons_append] at h
    rw [List.cons_append, sub, h]
    exact congrArg (replacement ++ ·) (sub_skip x)

end Substitution
