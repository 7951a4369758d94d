import AegisPlatform.Lib.Ranking
import Mathlib.Order.OrderDual

/-!
# Keyset pagination

A query that returns the first rows below a cursor, the greatest key first, and a reader that
asks for the next page with the key of the last row it was given, until a page is empty.

* `descending`, `page` — the rows in the order of the query, and one page of them.
* `Walk` — the reader.
* `Walk.unique`, `walk_descending` — it is given every row below the first cursor once, in order.
-/

namespace Keyset

/-! ## Pages -/

section Pages

variable {α κ : Type*} [LinearOrder κ] (key : α → κ)

/-- The rows, the greatest key first. -/
def descending (rows : List α) : List α := Ranking.ranked (fun a => OrderDual.toDual (key a)) rows

/-- The rows below the cursor. -/
def below (rows : List α) (cursor : κ) : List α := rows.filter fun a => key a < cursor

/-- The first rows below the cursor. -/
def page (rows : List α) (limit : ℕ) (cursor : κ) : List α :=
  (descending key (below key rows cursor)).take limit

variable {key} {rows l l' : List α} {a : α} {cursor : κ}

theorem mem_descending : a ∈ descending key rows ↔ a ∈ rows := Ranking.mem_ranked

theorem mem_below : a ∈ below key rows cursor ↔ a ∈ rows ∧ key a < cursor := by
  rw [below, List.mem_filter, decide_eq_true_eq]

theorem nodup_below (hnodup : (rows.map key).Nodup) (cursor : κ) :
    ((below key rows cursor).map key).Nodup :=
  hnodup.sublist (List.filter_sublist.map key)

theorem below_eq_self (h : ∀ a ∈ rows, key a < cursor) : below key rows cursor = rows :=
  List.filter_eq_self.2 fun a ha => decide_eq_true (h a ha)

theorem below_below {cursor' : κ} (h : cursor' ≤ cursor) :
    below key (below key rows cursor) cursor' = below key rows cursor' := by
  rw [below, below, List.filter_filter]
  refine List.filter_congr fun a _ => ?_
  have himp : key a < cursor' → key a < cursor := fun hlt => hlt.trans_le h
  by_cases ha : key a < cursor' <;> simp [ha, himp]

theorem descending_strict (hnodup : (rows.map key).Nodup) :
    (descending key rows).Pairwise fun a b => key b < key a := by
  have hdual : (rows.map fun a => OrderDual.toDual (key a)).Nodup := by
    have hmap := hnodup.map OrderDual.toDual.injective
    rwa [List.map_map] at hmap
  exact (Ranking.ranked_strict hdual).imp fun h => OrderDual.toDual_lt_toDual.1 h

theorem descending_below (hnodup : (rows.map key).Nodup) (cursor : κ) :
    descending key (below key rows cursor) = below key (descending key rows) cursor := by
  refine Ranking.ranked_filter _ ?_
  have hmap := hnodup.map OrderDual.toDual.injective
  rwa [List.map_map] at hmap

/-- Below the last row of a page lie the rows after the page. -/
theorem below_last (h : (l ++ l').Pairwise fun a b => key b < key a) (hlast : l.getLast? = some a) :
    below key (l ++ l') (key a) = l' := by
  obtain ⟨before, rfl⟩ := List.getLast?_eq_some_iff.1 hlast
  obtain ⟨hpage, -, hafter⟩ := List.pairwise_append.1 h
  rw [below, List.filter_append]
  have hseen : (before ++ [a]).filter (fun b => decide (key b < key a)) = [] := by
    rw [List.filter_eq_nil_iff]
    intro b hb
    rw [decide_eq_true_eq]
    rcases List.mem_append.1 hb with hb | hb
    · exact (List.pairwise_append.1 hpage |>.2.2 b hb a (List.mem_singleton_self a)).not_gt
    · rw [List.mem_singleton.1 hb]
      exact lt_irrefl _
  have hrest : l'.filter (fun b => decide (key b < key a)) = l' :=
    List.filter_eq_self.2 fun b hb => decide_eq_true (hafter a (by simp) b hb)
  rw [hseen, hrest, List.nil_append]

/-- After a page, the rows below its last one are those the page has left. -/
theorem descending_after_page (hnodup : (rows.map key).Nodup) {limit : ℕ}
    (hlast : (page key rows limit cursor).getLast? = some a) :
    descending key (below key rows (key a)) =
      (descending key (below key rows cursor)).drop limit := by
  have ha : a ∈ below key rows cursor :=
    mem_descending.1 (List.take_subset _ _ (List.mem_of_getLast? hlast))
  have hnodup' := nodup_below hnodup cursor
  have hstrict := descending_strict hnodup'
  rw [← List.take_append_drop limit (descending key (below key rows cursor))] at hstrict
  rw [← below_below (mem_below.1 ha).2.le, descending_below hnodup']
  conv_lhs => rw [← List.take_append_drop limit (descending key (below key rows cursor))]
  exact below_last hstrict hlast

theorem length_descending : (descending key rows).length = rows.length :=
  (Ranking.ranked_perm _ rows).length_eq

end Pages

/-! ## The reader -/

section Reader

variable {γ β ε : Type*} (fetch : γ → Except ε (List β)) (next : β → Option γ)

/-- The reader is given these rows from the cursor on. -/
inductive Walk : γ → List β → Prop
  | done {cursor : γ} : fetch cursor = .ok [] → Walk cursor []
  | step {cursor cursor' : γ} {page rest : List β} {last : β} : fetch cursor = .ok page →
      page.getLast? = some last → next last = some cursor' → Walk cursor' rest →
      Walk cursor (page ++ rest)

variable {fetch next}

/-- **There is one walk from a cursor.** -/
theorem Walk.unique {cursor : γ} {visited visited' : List β} (h : Walk fetch next cursor visited)
    (h' : Walk fetch next cursor visited') : visited = visited' := by
  induction h generalizing visited' with
  | done hfetch =>
    cases h' with
    | done _ => rfl
    | step hfetch' hlast' _ _ =>
      rw [hfetch] at hfetch'
      rw [← Except.ok.inj hfetch'] at hlast'
      cases hlast'
  | step hfetch hlast hnext _ ih =>
    cases h' with
    | done hfetch' =>
      rw [hfetch] at hfetch'
      rw [Except.ok.inj hfetch'] at hlast
      cases hlast
    | step hfetch' hlast' hnext' hrest' =>
      obtain rfl := Except.ok.inj (hfetch.symm.trans hfetch')
      obtain rfl := Option.some.inj (hlast.symm.trans hlast')
      obtain rfl := Option.some.inj (hnext.symm.trans hnext')
      rw [ih hrest']

variable {α κ : Type*} [LinearOrder κ] {key : α → κ} {rows : List α} {limit : ℕ}
  {view : α → β} {cursorKey : γ → κ}

/-- **The walk is lossless**: it gives all rows below the cursor, in the order of the query, each
once. -/
theorem walk_descending (hlimit : 0 < limit) (hnodup : (rows.map key).Nodup)
    (hfetch : ∀ c, fetch c = .ok ((page key rows limit (cursorKey c)).map view))
    (hnext : ∀ a ∈ rows, ∃ c, next (view a) = some c ∧ cursorKey c = key a) (cursor : γ) :
    Walk fetch next cursor ((descending key (below key rows (cursorKey cursor))).map view) := by
  -- by the number of rows below the cursor, of which every page takes some
  induction hn : (below key rows (cursorKey cursor)).length using Nat.strong_induction_on
    generalizing cursor with
  | _ n ih =>
    have hpage := hfetch cursor
    cases hlast : (page key rows limit (cursorKey cursor)).getLast? with
    | none =>
      have hempty := List.getLast?_eq_none_iff.1 hlast
      have hnil := (List.take_eq_nil_iff.1 hempty).resolve_left hlimit.ne'
      rw [hempty, List.map_nil] at hpage
      rw [hnil]
      exact .done hpage
    | some a =>
      have ha : a ∈ below key rows (cursorKey cursor) :=
        mem_descending.1 (List.take_subset _ _ (List.mem_of_getLast? hlast))
      obtain ⟨cursor', hcursor', hkey⟩ := hnext a (mem_below.1 ha).1
      have hrest := descending_after_page hnodup hlast
      rw [← hkey] at hrest
      have hfewer : (below key rows (cursorKey cursor')).length < n := by
        have hlength := congrArg List.length hrest
        rw [length_descending, List.length_drop, length_descending] at hlength
        have hpos := List.length_pos_of_mem ha
        omega
      have hwalk := ih _ hfewer cursor' rfl
      rw [hrest] at hwalk
      rw [← List.take_append_drop limit (descending key (below key rows (cursorKey cursor))),
        List.map_append]
      exact .step hpage (List.getLast?_map.trans (congrArg (Option.map view) hlast)) hcursor' hwalk

end Reader

end Keyset
