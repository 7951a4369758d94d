import Mathlib.Data.List.Sort
import Mathlib.Data.List.Nodup

/-!
# Ranking by a key

`ranked f l` is the list `l` in the order of the key `f`, equal keys in the order given.  Where
the keys are distinct it is the only such list, and so

* it does not depend on the order given (`ranked_congr`),
* to leave members out before or after is the same (`ranked_filter`).
-/

namespace Ranking

variable {α κ : Type*} [LinearOrder κ] (f : α → κ)

def ranked (l : List α) : List α := l.insertionSort fun a b => f a ≤ f b

variable {f} {l l' : List α}

theorem ranked_perm (f : α → κ) (l : List α) : (ranked f l).Perm l :=
  List.perm_insertionSort _ l

theorem mem_ranked {a : α} : a ∈ ranked f l ↔ a ∈ l := (ranked_perm f l).mem_iff

theorem ranked_eq_nil : ranked f l = [] ↔ l = [] := by
  rw [← List.length_eq_zero_iff, (ranked_perm f l).length_eq, List.length_eq_zero_iff]

/-- Distinct keys are in strict order. -/
theorem ranked_strict (h : (l.map f).Nodup) : (ranked f l).Pairwise fun a b => f a < f b := by
  have hsorted : (ranked f l).Pairwise fun a b => f a ≤ f b := by
    have : Std.Total fun a b : α => f a ≤ f b := ⟨fun a b => le_total (f a) (f b)⟩
    have : IsTrans α fun a b => f a ≤ f b := ⟨fun _ _ _ => le_trans⟩
    exact List.pairwise_insertionSort _ l
  have hnodup : ((ranked f l).map f).Nodup := ((ranked_perm f l).map f).nodup_iff.mpr h
  have hne := List.pairwise_map.mp hnodup
  exact (hsorted.and hne).imp fun ⟨hle, hne⟩ => lt_of_le_of_ne hle hne

/-- **There is one list in strict order.** -/
theorem strict_unique (hperm : l.Perm l') (h : l.Pairwise fun a b => f a < f b)
    (h' : l'.Pairwise fun a b => f a < f b) : l = l' :=
  hperm.eq_of_pairwise (fun _ _ _ _ hab hba => absurd hba hab.asymm) h h'

theorem ranked_congr (hperm : l.Perm l') (h : (l.map f).Nodup) : ranked f l = ranked f l' := by
  refine strict_unique ?_ (ranked_strict h) (ranked_strict ((hperm.map f).nodup_iff.mp h))
  exact ((ranked_perm f l).trans hperm).trans (ranked_perm f l').symm

theorem ranked_filter (p : α → Bool) (h : (l.map f).Nodup) :
    ranked f (l.filter p) = (ranked f l).filter p := by
  refine strict_unique ?_ (ranked_strict ?_) ((ranked_strict h).filter p)
  · exact (ranked_perm f _).trans ((ranked_perm f l).filter p).symm
  · exact h.sublist (List.filter_sublist.map f)

end Ranking
