import Mathlib.Data.List.Basic

/-!
# Insertion-ordered dictionaries

A dictionary that remembers the order in which its keys were first set, as
Python's does: `set` overwrites in place, and a new key goes to the end.

* `lookup_set` — what every key sees after a `set`.
* `values_set_new`, `values_set` — what becomes of the list of values: one more
  at the end, or one of them replaced.
* `Keyed` — every value is under the key it names.
* `perm_flatMap_filter` — a list, sorted by keys.
-/

/-- A dictionary from `κ` to `ρ`, in insertion order. -/
abbrev Assoc (κ ρ : Type) := List (κ × ρ)

namespace Assoc

variable {κ ρ : Type} [DecidableEq κ]

/-- `d[key] = value`. -/
def set (key : κ) (value : ρ) : Assoc κ ρ → Assoc κ ρ
  | [] => [(key, value)]
  | (k, v) :: rest => if k = key then (k, value) :: rest else (k, v) :: set key value rest

/-- `d.values()`. -/
def values (d : Assoc κ ρ) : List ρ := d.map (·.2)

theorem lookup_cons (k : κ) (v : ρ) (d : Assoc κ ρ) (key : κ) :
    List.lookup key ((k, v) :: d) = if key = k then some v else d.lookup key := by
  rw [List.lookup_cons]
  by_cases hk : key = k
  · subst hk; simp
  · rw [if_neg hk, beq_false_of_ne hk]

theorem lookup_set (d : Assoc κ ρ) (key : κ) (value : ρ) (k : κ) :
    (d.set key value).lookup k = if k = key then some value else d.lookup k := by
  induction d with
  | nil => rw [set, lookup_cons]
  | cons p rest ih =>
    obtain ⟨k₀, v₀⟩ := p
    by_cases hk : k₀ = key
    · subst hk
      rw [set, if_pos rfl, lookup_cons, lookup_cons]
      split <;> rfl
    · rw [set, if_neg hk, lookup_cons, lookup_cons, ih]
      by_cases h : k = k₀
      · subst h
        rw [if_pos rfl, if_pos rfl, if_neg hk]
      · rw [if_neg h, if_neg h]

theorem mem_values_of_lookup {d : Assoc κ ρ} {key : κ} {value : ρ}
    (h : d.lookup key = some value) : value ∈ d.values := by
  induction d with
  | nil => cases h
  | cons p rest ih =>
    obtain ⟨k, v⟩ := p
    rw [lookup_cons] at h
    by_cases hk : key = k
    · rw [if_pos hk] at h
      cases h
      exact List.mem_cons_self
    · rw [if_neg hk] at h
      exact List.mem_cons_of_mem _ (ih h)

/-- A new key goes to the end. -/
theorem values_set_new {d : Assoc κ ρ} {key : κ} (h : d.lookup key = none) (value : ρ) :
    (d.set key value).values = d.values ++ [value] := by
  induction d with
  | nil => rfl
  | cons p rest ih =>
    obtain ⟨k, v⟩ := p
    rw [lookup_cons] at h
    by_cases hk : key = k
    · rw [if_pos hk] at h; cases h
    · rw [if_neg hk] at h
      rw [set, if_neg (Ne.symm hk)]
      exact congrArg (v :: ·) (ih h)

/-- An old key keeps its place. -/
theorem values_set {d : Assoc κ ρ} {key : κ} {old : ρ} (h : d.lookup key = some old) (value : ρ) :
    ∃ left right, d.values = left ++ old :: right ∧
      (d.set key value).values = left ++ value :: right := by
  induction d with
  | nil => cases h
  | cons p rest ih =>
    obtain ⟨k, v⟩ := p
    rw [lookup_cons] at h
    by_cases hk : key = k
    · rw [if_pos hk] at h
      cases h
      exact ⟨[], values rest, rfl, by rw [set, if_pos hk.symm]; rfl⟩
    · rw [if_neg hk] at h
      obtain ⟨left, right, hold, hnew⟩ := ih h
      refine ⟨v :: left, right, congrArg (v :: ·) hold, ?_⟩
      rw [set, if_neg (Ne.symm hk)]
      exact congrArg (v :: ·) hnew

/-! ## Values that name their keys -/

theorem mem_set {d : Assoc κ ρ} {key : κ} {value : ρ} {p : κ × ρ} (h : p ∈ d.set key value) :
    p = (key, value) ∨ p ∈ d := by
  induction d with
  | nil => exact Or.inl (List.mem_singleton.1 h)
  | cons q rest ih =>
    obtain ⟨k, v⟩ := q
    by_cases hk : k = key
    · rw [set, if_pos hk] at h
      rcases List.mem_cons.1 h with rfl | h
      · exact Or.inl (by rw [hk])
      · exact Or.inr (List.mem_cons_of_mem _ h)
    · rw [set, if_neg hk] at h
      rcases List.mem_cons.1 h with rfl | h
      · exact Or.inr List.mem_cons_self
      · exact (ih h).imp_right (List.mem_cons_of_mem _)

theorem nodup_set {d : Assoc κ ρ} (h : (d.map (·.1)).Nodup) (key : κ) (value : ρ) :
    ((d.set key value).map (·.1)).Nodup := by
  induction d with
  | nil => simp [set]
  | cons q rest ih =>
    obtain ⟨k, v⟩ := q
    rw [List.map_cons, List.nodup_cons] at h
    by_cases hk : k = key
    · rw [set, if_pos hk, List.map_cons, List.nodup_cons]
      exact h
    · rw [set, if_neg hk, List.map_cons, List.nodup_cons]
      refine ⟨fun hmem => ?_, ih h.2⟩
      obtain ⟨p, hp, hkey⟩ := List.mem_map.1 hmem
      rcases mem_set hp with rfl | hp
      · exact hk hkey.symm
      · exact h.1 (List.mem_map.2 ⟨p, hp, hkey⟩)

/-- Every value is under the key it names, and no key is there twice. -/
structure Keyed (name : ρ → κ) (d : Assoc κ ρ) : Prop where
  nodup : (d.map (·.1)).Nodup
  named : ∀ p ∈ d, name p.2 = p.1

namespace Keyed

variable {name : ρ → κ} {d : Assoc κ ρ} {key : κ} {value : ρ}

theorem set (h : d.Keyed name) (hname : name value = key) : (d.set key value).Keyed name := by
  refine ⟨nodup_set h.nodup key value, fun p hp => ?_⟩
  rcases mem_set hp with rfl | hp
  · exact hname
  · exact h.named p hp

theorem name_eq (h : d.Keyed name) (hlookup : d.lookup key = some value) : name value = key := by
  obtain ⟨left, right, heq, -⟩ := List.lookup_eq_some_iff.1 hlookup
  exact h.named (key, value) (by rw [heq]; simp)

theorem lookup_name (h : d.Keyed name) (hvalue : value ∈ d.values) :
    d.lookup (name value) = some value := by
  obtain ⟨nodup, named⟩ := h
  induction d with
  | nil => cases hvalue
  | cons p rest ih =>
    obtain ⟨k, v⟩ := p
    rw [List.map_cons, List.nodup_cons] at nodup
    rw [lookup_cons]
    rcases List.mem_cons.1 hvalue with rfl | hvalue
    · rw [if_pos (named (k, value) List.mem_cons_self)]
    · have hlookup := ih hvalue nodup.2 fun p hp => named p (List.mem_cons_of_mem _ hp)
      obtain ⟨left, right, heq, -⟩ := List.lookup_eq_some_iff.1 hlookup
      have hne : name value ≠ k := by
        rintro rfl
        exact nodup.1 (by rw [heq]; simp)
      rw [if_neg hne]
      exact hlookup

end Keyed

/-! ## Sorting by keys -/

/-- **What is sorted by keys is all there**, if every element has one of the keys. -/
theorem perm_flatMap_filter {α : Type} (key : α → κ) {keys : List κ} (hnodup : keys.Nodup)
    {l : List α} (hkeys : ∀ a ∈ l, key a ∈ keys) :
    (keys.flatMap fun k => l.filter fun a => key a = k).Perm l := by
  induction keys generalizing l with
  | nil =>
    cases l with
    | nil => exact .refl _
    | cons a l => exact absurd (hkeys a List.mem_cons_self) List.not_mem_nil
  | cons k keys ih =>
    rw [List.nodup_cons] at hnodup
    -- the other keys do not see the elements of the first
    have hrest : (keys.flatMap fun k' => l.filter fun a => key a = k') =
        keys.flatMap fun k' => (l.filter fun a => !decide (key a = k)).filter fun a => key a = k' := by
      refine List.flatMap_congr fun k' hk' => ?_
      rw [List.filter_filter]
      refine List.filter_congr fun a _ => ?_
      by_cases hkey : key a = k'
      · have hne : k' ≠ k := fun h => hnodup.1 (h ▸ hk')
        simp [hkey, hne]
      · simp [hkey]
    rw [List.flatMap_cons, hrest]
    have hother : ∀ a ∈ l.filter fun a => !decide (key a = k), key a ∈ keys := by
      intro a ha
      rw [List.mem_filter, Bool.not_eq_true', decide_eq_false_iff_not] at ha
      exact (List.mem_cons.1 (hkeys a ha.1)).resolve_left ha.2
    exact ((ih hnodup.2 hother).append_left _).trans (List.filter_append_perm _ l)

end Assoc
