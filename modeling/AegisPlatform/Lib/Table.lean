import Mathlib.Data.List.AList

/-!
# Keyed tables

A table with a primary key, and the three statements a transaction runs on it.
Each statement that a caller checks the row count of is an `Option`: `none` is a
count other than one.

* `insertNew` — `INSERT`, refused when the key is taken.
* `updateWhere` — `UPDATE … WHERE key = k AND p`.
* `upsert` — `INSERT … ON CONFLICT (key) DO UPDATE`.
* `modify`, `delete` — an `UPDATE` or `DELETE` by key whose count nobody looks at.
* `put`, `deleteWhere` — what a statement leaves at one key, and a `DELETE` of many.
* `leftJoin` — `LEFT JOIN`; against a table by its primary key it keeps the rows as they are.

For each, `lookup_*` says what every key sees afterwards.  Counts over the rows
are taken apart key by key: `countP_rows_congr`, `countP_rows_delete`.
-/

/-- A table of rows `ρ` under the primary key `κ`. -/
abbrev Table (κ ρ : Type) := AList (fun _ : κ => ρ)

namespace Table

variable {κ ρ : Type} [DecidableEq κ]

/-- The rows with their keys. -/
def rows (t : Table κ ρ) : List (κ × ρ) := t.entries.map fun e => (e.1, e.2)

/-- Insert a row or replace the one under its key. -/
def upsert (t : Table κ ρ) (k : κ) (r : ρ) : Table κ ρ := AList.insert k r t

/-- Insert a row under a new key. -/
def insertNew (t : Table κ ρ) (k : κ) (r : ρ) : Option (Table κ ρ) :=
  if (t.lookup k).isSome then none else some (t.upsert k r)

/-- Update the row under a key, provided it is there and satisfies `p`. -/
def updateWhere (t : Table κ ρ) (k : κ) (p : ρ → Bool) (f : ρ → ρ) : Option (Table κ ρ) :=
  match t.lookup k with
  | some r => if p r then some (t.upsert k (f r)) else none
  | none => none

/-- Update the row under a key if it is there. -/
def modify (t : Table κ ρ) (k : κ) (f : ρ → ρ) : Table κ ρ :=
  match t.lookup k with
  | some r => t.upsert k (f r)
  | none => t

theorem lookup_upsert (t : Table κ ρ) (k : κ) (r : ρ) (k' : κ) :
    (t.upsert k r).lookup k' = if k' = k then some r else t.lookup k' := by
  unfold upsert
  by_cases hk : k' = k
  · subst hk; rw [AList.lookup_insert, if_pos rfl]
  · rw [AList.lookup_insert_ne hk, if_neg hk]

@[simp] theorem lookup_upsert_self (t : Table κ ρ) (k : κ) (r : ρ) :
    (t.upsert k r).lookup k = some r := by rw [lookup_upsert, if_pos rfl]

theorem lookup_upsert_ne (t : Table κ ρ) {k k' : κ} (r : ρ) (h : k' ≠ k) :
    (t.upsert k r).lookup k' = t.lookup k' := by rw [lookup_upsert, if_neg h]

theorem insertNew_eq_some {t t' : Table κ ρ} {k : κ} {r : ρ} :
    t.insertNew k r = some t' ↔ t.lookup k = none ∧ t' = t.upsert k r := by
  unfold insertNew
  cases t.lookup k with
  | none => simp [eq_comm]
  | some r => simp

theorem updateWhere_eq_some {t t' : Table κ ρ} {k : κ} {p : ρ → Bool} {f : ρ → ρ} :
    t.updateWhere k p f = some t' ↔
      ∃ r, t.lookup k = some r ∧ p r = true ∧ t' = t.upsert k (f r) := by
  unfold updateWhere
  cases t.lookup k with
  | none => simp
  | some r =>
    by_cases hp : p r = true
    · simpa [hp] using eq_comm
    · simp [hp]

theorem lookup_modify (t : Table κ ρ) (k : κ) (f : ρ → ρ) (k' : κ) :
    (t.modify k f).lookup k' = if k' = k then (t.lookup k').map f else t.lookup k' := by
  unfold modify
  by_cases hk : k' = k
  · subst hk
    cases h : t.lookup k' with
    | none => simp [h]
    | some r => simp
  · cases h : t.lookup k with
    | none => simp [hk]
    | some r => simp [lookup_upsert_ne _ _ hk, hk]

/-- Delete the row under a key. -/
def delete (t : Table κ ρ) (k : κ) : Table κ ρ := AList.erase k t

theorem lookup_delete (t : Table κ ρ) (k k' : κ) :
    (t.delete k).lookup k' = if k' = k then none else t.lookup k' := by
  unfold delete
  by_cases hk : k' = k
  · subst hk; rw [AList.lookup_erase, if_pos rfl]
  · rw [AList.lookup_erase_ne hk, if_neg hk]

/-- Let a statement on one key leave this row there, or none. -/
def put (t : Table κ ρ) (k : κ) : Option ρ → Table κ ρ
  | some r => t.upsert k r
  | none => t.delete k

theorem lookup_put (t : Table κ ρ) (k : κ) (r : Option ρ) (k' : κ) :
    (t.put k r).lookup k' = if k' = k then r else t.lookup k' := by
  cases r with
  | some r => exact lookup_upsert t k r k'
  | none => exact lookup_delete t k k'

/-- `DELETE … WHERE` a condition on the key. -/
def deleteWhere (t : Table κ ρ) (p : κ → Bool) : Table κ ρ where
  entries := t.entries.filter fun e => !p e.1
  nodupKeys := t.nodupKeys.sublist List.filter_sublist

theorem lookup_deleteWhere (t : Table κ ρ) (p : κ → Bool) (k : κ) :
    (t.deleteWhere p).lookup k = if p k then none else t.lookup k := by
  ext r
  rw [← Option.mem_def, AList.mem_lookup_iff]
  show ⟨k, r⟩ ∈ t.entries.filter (fun e => !p e.1) ↔ _
  rw [List.mem_filter, ← AList.mem_lookup_iff, Option.mem_def]
  by_cases hp : p k = true
  · simp [hp]
  · simp [hp]

theorem mem_rows {t : Table κ ρ} {k : κ} {r : ρ} : (k, r) ∈ t.rows ↔ t.lookup k = some r := by
  rw [← Option.mem_def, AList.mem_lookup_iff]
  unfold rows
  rw [List.mem_map]
  constructor
  · rintro ⟨⟨k', r'⟩, hmem, heq⟩
    cases heq
    exact hmem
  · intro hmem
    exact ⟨⟨k, r⟩, hmem, rfl⟩

omit [DecidableEq κ] in
theorem nodup_keys (t : Table κ ρ) : (t.rows.map Prod.fst).Nodup := by
  unfold rows
  rw [List.map_map]
  exact t.nodupKeys

/-- A condition on the key and the row finds the row under the key, if it satisfies it. -/
theorem filter_rows (t : Table κ ρ) (k : κ) (p : ρ → Bool) :
    (t.rows.filter fun r => decide (r.1 = k) && p r.2) =
      (((t.lookup k).filter p).map fun r => (k, r)).toList := by
  have hnodup : (t.rows.filter fun r => decide (r.1 = k) && p r.2).Nodup :=
    (List.Nodup.of_map Prod.fst (nodup_keys t)).sublist List.filter_sublist
  have hmem : ∀ row, row ∈ (t.rows.filter fun r => decide (r.1 = k) && p r.2) ↔
      row ∈ (((t.lookup k).filter p).map fun r => (k, r)).toList := by
    rintro ⟨k', r⟩
    rw [List.mem_filter, mem_rows]
    cases hk : (t.lookup k).filter p with
    | none =>
      simp only [Option.map_none, Option.toList_none, List.not_mem_nil, iff_false]
      rintro ⟨hlookup, hp⟩
      simp only [Bool.and_eq_true, decide_eq_true_eq] at hp
      obtain ⟨rfl, hp⟩ := hp
      simp [hlookup, hp] at hk
    | some r' =>
      obtain ⟨hlookup, hp⟩ := Option.filter_eq_some_iff.1 hk
      simp only [Bool.and_eq_true, decide_eq_true_eq, Option.map_some, Option.toList_some,
        List.mem_singleton, Prod.mk.injEq]
      constructor
      · rintro ⟨hlookup', rfl, -⟩
        exact ⟨rfl, Option.some.inj (hlookup'.symm.trans hlookup)⟩
      · rintro ⟨rfl, rfl⟩
        exact ⟨hlookup, rfl, hp⟩
  cases hk : (t.lookup k).filter p with
  | none =>
    rw [hk] at hmem
    exact List.eq_nil_iff_forall_not_mem.2 fun row hrow => by simpa using (hmem row).1 hrow
  | some r =>
    rw [hk] at hmem
    exact List.perm_singleton.1
      ((List.perm_ext_iff_of_nodup hnodup (List.nodup_singleton _)).2 hmem)

/-- Updating rows by key, one after the other, updates each of them once. -/
theorem lookup_foldl_modify (f : ρ → ρ) (ks : List (κ × ρ)) (t : Table κ ρ)
    (hks : (ks.map Prod.fst).Nodup) (k : κ) :
    (ks.foldl (fun t row => t.modify row.1 f) t).lookup k =
      if k ∈ ks.map Prod.fst then (t.lookup k).map f else t.lookup k := by
  induction ks generalizing t with
  | nil => rfl
  | cons row rest ih =>
    rw [List.map_cons, List.nodup_cons] at hks
    obtain ⟨hnot, hrest⟩ := hks
    rw [List.foldl_cons, ih _ hrest, lookup_modify, List.map_cons]
    by_cases hk : k = row.1
    · subst hk
      rw [if_neg hnot, if_pos rfl, if_pos (List.mem_cons_self ..)]
    · simp only [List.mem_cons, hk, false_or, if_false]

/-! ## Counting rows -/

omit [DecidableEq κ] in
theorem nodup_rows (t : Table κ ρ) : t.rows.Nodup := by
  unfold rows
  refine (t.nodupKeys.nodup).map ?_
  rintro ⟨k, r⟩ ⟨k', r'⟩ heq
  cases heq
  rfl

/-- Tables in which every key has the same row have the same rows, in some order. -/
theorem rows_perm_of_lookup {t t' : Table κ ρ} (h : ∀ k, t'.lookup k = t.lookup k) :
    t'.rows.Perm t.rows := by
  refine (List.perm_ext_iff_of_nodup (nodup_rows t') (nodup_rows t)).2 ?_
  rintro ⟨k, r⟩
  rw [mem_rows, mem_rows, h k]

/-- Counts depend on what the keys see only. -/
theorem countP_rows_congr {t t' : Table κ ρ} (h : ∀ k, t'.lookup k = t.lookup k)
    (p : κ × ρ → Bool) : t'.rows.countP p = t.rows.countP p :=
  (rows_perm_of_lookup h).countP_eq p

/-- A row, and the rest. -/
theorem rows_perm_delete {t : Table κ ρ} {k : κ} {r : ρ} (hk : t.lookup k = some r) :
    t.rows.Perm ((k, r) :: (t.delete k).rows) := by
  have hnot : (k, r) ∉ (t.delete k).rows := by
    rw [mem_rows, lookup_delete, if_pos rfl]
    exact fun h => (by cases h)
  refine (List.perm_ext_iff_of_nodup (nodup_rows t)
    (List.nodup_cons.2 ⟨hnot, nodup_rows _⟩)).2 ?_
  rintro ⟨k', r'⟩
  rw [List.mem_cons, mem_rows, mem_rows, lookup_delete, Prod.mk.injEq]
  by_cases heq : k' = k
  · subst heq
    simp [hk, eq_comm]
  · simp [heq]

/-- Where there is no row there is none to delete. -/
theorem rows_delete_perm {t : Table κ ρ} {k : κ} (hk : t.lookup k = none) :
    (t.delete k).rows.Perm t.rows := by
  refine (List.perm_ext_iff_of_nodup (nodup_rows _) (nodup_rows t)).2 ?_
  rintro ⟨k', r'⟩
  rw [mem_rows, mem_rows, lookup_delete]
  by_cases heq : k' = k
  · rw [if_pos heq, heq, hk]
  · rw [if_neg heq]

theorem rows_upsert (t : Table κ ρ) (k : κ) (r : ρ) :
    (t.upsert k r).rows = (k, r) :: (t.delete k).rows := rfl

/-- A count is what it is without one key, and that key. -/
theorem countP_rows_delete (t : Table κ ρ) (k : κ) (p : κ × ρ → Bool) :
    t.rows.countP p =
      (t.delete k).rows.countP p + if (t.lookup k).any fun r => p (k, r) then 1 else 0 := by
  cases hk : t.lookup k with
  | none =>
    rw [(rows_delete_perm hk).countP_eq p]
    simp
  | some r =>
    rw [(rows_perm_delete hk).countP_eq p, List.countP_cons]
    simp

/-! ## Joins -/

section

variable {α β : Type} (on : α → β → Bool)

/-- `LEFT JOIN`: every row with each of its matches, or with nulls. -/
def leftJoin (rows : List α) (others : List β) : List (α × Option β) :=
  rows.flatMap fun a => match others.filter (on a) with
    | [] => [(a, none)]
    | found => found.map fun b => (a, some b)

variable {on}

/-- **Rows with at most one match each are kept as they are.** -/
theorem leftJoin_eq_map {rows : List α} {others : List β} {found : α → Option β}
    (h : ∀ a ∈ rows, others.filter (on a) = (found a).toList) :
    leftJoin on rows others = rows.map fun a => (a, found a) := by
  induction rows with
  | nil => rfl
  | cons a rest ih =>
    have hrest := ih fun b hb => h b (List.mem_cons_of_mem _ hb)
    have ha := h a List.mem_cons_self
    rw [leftJoin, List.flatMap_cons, List.map_cons, ha]
    cases hfound : found a with
    | none => exact congrArg _ hrest
    | some b => exact congrArg _ hrest

end

end Table
