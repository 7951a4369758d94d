import Mathlib

/-!
# Streams with a consumer group

A log that is read by a group of consumers.  What a consumer is given is pending until it is
settled, and what has been pending for long is claimed by another.  The group may be lost, and is
made again at the start of the log.

* `Stream` — the log and its group, each in the order of ids.
* `add`, `create`, `destroy`, `read`, `settle`, `claim` — the commands.
* `Stream.Inv` — every entry is yet to be read, or is pending.
* `Inv.claim_covers`, `Inv.lt_next` — a claim passes over nothing that is idle, and goes on.
-/

namespace Streams

variable {ι κ α : Type}

/-- An entry that was given to a consumer: to whom, when, and how often it was given to anybody. -/
structure Pending (ι κ : Type) where
  id : ι
  consumer : κ
  deliveredAt : ℤ
  deliveries : ℕ

/-- What the group was given last, and what is pending. -/
structure Group (ι κ : Type) where
  lastDelivered : ι
  pending : List (Pending ι κ) := []

structure Stream (ι κ α : Type) where
  entries : List (ι × α)
  lastId : ι
  group : Option (Group ι κ)

/-- What has come of a scan: the claimed entries, the pending ones, and where to go on. -/
structure Scan (ι κ α : Type) where
  claimed : List (ι × α)
  pending : List (Pending ι κ)
  next : Option ι

namespace Stream

variable [LinearOrder ι]

/-! ## Commands -/

/-- A new entry. -/
def add (s : Stream ι κ α) (id : ι) (value : α) : Stream ι κ α :=
  { s with entries := s.entries ++ [(id, value)], lastId := id }

/-- A group that was given everything up to an id, if there is none. -/
def create (s : Stream ι κ α) (start : ι) : Option (Stream ι κ α) :=
  if s.group.isSome then none else some { s with group := some ⟨start, []⟩ }

def destroy (s : Stream ι κ α) : Stream ι κ α := { s with group := none }

/-- The first entries that the group was not given yet. -/
def unread (s : Stream ι κ α) (g : Group ι κ) (count : ℕ) : List (ι × α) :=
  (s.entries.filter fun e => g.lastDelivered < e.1).take count

/-- Give new entries to a consumer. -/
def read (s : Stream ι κ α) (consumer : κ) (count : ℕ) (now : ℤ) :
    Option (List (ι × α) × Stream ι κ α) :=
  s.group.map fun g =>
    (s.unread g count, { s with
      group := some {
        lastDelivered := ((s.unread g count).getLast?.map (·.1)).getD g.lastDelivered
        pending := g.pending ++ (s.unread g count).map fun e => ⟨e.1, consumer, now, 1⟩ } })

/-- An entry is acknowledged and deleted. -/
def settle (s : Stream ι κ α) (id : ι) : Stream ι κ α :=
  { s with
    entries := s.entries.filter (·.1 ≠ id)
    group := s.group.map fun g => { g with pending := g.pending.filter (·.id ≠ id) } }

def find (s : Stream ι κ α) (id : ι) : Option α := (s.entries.find? (·.1 = id)).map (·.2)

/-- Look at so many pending entries at most, to claim so many of those that are idle.  An entry that
is deleted is pending no more. -/
def scan (s : Stream ι κ α) (consumer : κ) (minIdle now : ℤ) :
    ℕ → ℕ → List (Pending ι κ) → Scan ι κ α
  | attempts + 1, count + 1, p :: ps =>
    match s.find p.id with
    | none => s.scan consumer minIdle now attempts count ps
    | some value =>
      if now - p.deliveredAt < minIdle then
        let rest := s.scan consumer minIdle now attempts (count + 1) ps
        { rest with pending := p :: rest.pending }
      else
        let rest := s.scan consumer minIdle now attempts count ps
        { rest with
          claimed := (p.id, value) :: rest.claimed
          pending := ⟨p.id, consumer, now, p.deliveries + 1⟩ :: rest.pending }
  | _, _, ps => ⟨[], ps, ps.head?.map (·.id)⟩

/-- Give idle entries to a consumer, from an id on: where to go on, and the entries. -/
def claim (s : Stream ι κ α) (consumer : κ) (minIdle now : ℤ) (start : ι) (count : ℕ) :
    Option ((Option ι × List (ι × α)) × Stream ι κ α) :=
  s.group.map fun g =>
    let result := s.scan consumer minIdle now (10 * count) count
      (g.pending.dropWhile (·.id < start))
    ((result.next, result.claimed), { s with
      group := some { g with
        pending := g.pending.takeWhile (·.id < start) ++ result.pending } })

/-! ## What they give out -/

section

variable {s : Stream ι κ α} {g : Group ι κ} {id : ι} {value : α}

theorem mem_unread {count : ℕ} {e : ι × α} (he : e ∈ s.unread g count) :
    e ∈ s.entries ∧ g.lastDelivered < e.1 := by
  have hmem := List.mem_of_mem_take he
  simpa using List.mem_filter.1 hmem

theorem mem_of_find (h : s.find id = some value) : (id, value) ∈ s.entries := by
  obtain ⟨e, he, rfl⟩ := Option.map_eq_some_iff.1 h
  have hid : e.1 = id := by simpa using List.find?_some he
  rw [← hid]
  exact List.mem_of_find?_eq_some he

variable {consumer : κ} {minIdle now : ℤ} {attempts count : ℕ} {ps : List (Pending ι κ)}

/-- What a scan claims is in the log. -/
theorem mem_entries_of_scan {e : ι × α}
    (he : e ∈ (s.scan consumer minIdle now attempts count ps).claimed) : e ∈ s.entries := by
  induction ps generalizing attempts count with
  | nil =>
    cases attempts <;> cases count <;> cases he
  | cons p ps ih =>
    cases attempts with
    | zero => cases he
    | succ attempts =>
      cases count with
      | zero => cases he
      | succ count =>
        rw [scan] at he
        split at he
        · exact ih he
        · rename_i value hfind
          split at he
          · exact ih he
          · rcases List.mem_cons.1 he with rfl | he
            · exact mem_of_find hfind
            · exact ih he

/-- A scan changes who has the entries, and leaves out those that are deleted. -/
theorem scan_pending_sublist :
    ((s.scan consumer minIdle now attempts count ps).pending.map (·.id)).Sublist
      (ps.map (·.id)) := by
  induction ps generalizing attempts count with
  | nil => cases attempts <;> cases count <;> exact .slnil
  | cons p ps ih =>
    cases attempts with
    | zero => exact .refl _
    | succ attempts =>
      cases count with
      | zero => exact .refl _
      | succ count =>
        rw [scan]
        split
        · exact ih.cons _
        · split
          · exact ih.cons_cons _
          · exact ih.cons_cons _

theorem mem_scan_pending {p : Pending ι κ} (hp : p ∈ ps) (hfind : (s.find p.id).isSome) :
    ∃ p' ∈ (s.scan consumer minIdle now attempts count ps).pending, p'.id = p.id := by
  induction ps generalizing attempts count with
  | nil => cases hp
  | cons q ps ih =>
    cases attempts with
    | zero => exact ⟨p, hp, rfl⟩
    | succ attempts =>
      cases count with
      | zero => exact ⟨p, hp, rfl⟩
      | succ count =>
        rw [scan]
        split
        · rename_i hnone
          rcases List.mem_cons.1 hp with rfl | hp
          · rw [hnone] at hfind
            cases hfind
          · exact ih hp
        · split
          all_goals
            rcases List.mem_cons.1 hp with rfl | hp
            · exact ⟨_, List.mem_cons_self, rfl⟩
            · obtain ⟨p', hp', hid⟩ := ih hp
              exact ⟨p', List.mem_cons_of_mem _ hp', hid⟩

theorem scan_next_mem {c : ι}
    (hnext : (s.scan consumer minIdle now attempts count ps).next = some c) :
    ∃ p ∈ ps, p.id = c := by
  have hhead : ∀ {ps : List (Pending ι κ)}, ps.head?.map (·.id) = some c → ∃ p ∈ ps, p.id = c := by
    intro ps h
    obtain ⟨p, hp, rfl⟩ := Option.map_eq_some_iff.1 h
    exact ⟨p, List.mem_of_mem_head? hp, rfl⟩
  induction ps generalizing attempts count with
  | nil => cases attempts <;> cases count <;> cases hnext
  | cons p ps ih =>
    cases attempts with
    | zero => exact hhead hnext
    | succ attempts =>
      cases count with
      | zero => exact hhead hnext
      | succ count =>
        rw [scan] at hnext
        have hrest : ∃ p ∈ ps, p.id = c := by
          split at hnext
          · exact ih hnext
          · split at hnext <;> exact ih hnext
        obtain ⟨p, hp, hid⟩ := hrest
        exact ⟨p, List.mem_cons_of_mem _ hp, hid⟩

/-- **A scan passes over nothing that is idle**: it claims it, or goes on before it. -/
theorem scan_covers (hordered : ps.Pairwise fun p p' => p.id < p'.id) {p : Pending ι κ}
    (hp : p ∈ ps)
    (hfind : s.find p.id = some value) (hidle : minIdle ≤ now - p.deliveredAt) :
    (p.id, value) ∈ (s.scan consumer minIdle now attempts count ps).claimed ∨
      ∃ c, (s.scan consumer minIdle now attempts count ps).next = some c ∧ c ≤ p.id := by
  induction ps generalizing attempts count with
  | nil => cases hp
  | cons q ps ih =>
    have hle : q.id ≤ p.id := by
      rcases List.mem_cons.1 hp with rfl | hp
      · exact le_rfl
      · exact ((List.pairwise_cons.1 hordered).1 p hp).le
    cases attempts with
    | zero => exact .inr ⟨q.id, rfl, hle⟩
    | succ attempts =>
      cases count with
      | zero => exact .inr ⟨q.id, rfl, hle⟩
      | succ count =>
        rw [scan]
        rcases List.mem_cons.1 hp with rfl | hp
        · rw [hfind]
          dsimp only
          rw [if_neg (Int.not_lt.2 hidle)]
          exact .inl List.mem_cons_self
        · have hrest := fun attempts count =>
            @ih attempts count (List.pairwise_cons.1 hordered).2 hp
          split
          · exact hrest _ _
          · split
            · exact hrest _ _
            · exact (hrest attempts count).imp_left (List.mem_cons_of_mem _)

/-- What a scan does not claim stays as it is. -/
theorem mem_scan_pending_of_not_claimed {p : Pending ι κ} (hp : p ∈ ps)
    (hfind : s.find p.id = some value)
    (hnot : (p.id, value) ∉ (s.scan consumer minIdle now attempts count ps).claimed) :
    p ∈ (s.scan consumer minIdle now attempts count ps).pending := by
  induction ps generalizing attempts count with
  | nil => cases hp
  | cons q ps ih =>
    cases attempts with
    | zero => exact hp
    | succ attempts =>
      cases count with
      | zero => exact hp
      | succ count =>
        rw [scan] at hnot ⊢
        rcases List.mem_cons.1 hp with rfl | hp
        · rw [hfind] at hnot ⊢
          dsimp only at hnot ⊢
          split at hnot
          · rename_i hrecent
            rw [if_pos hrecent]
            exact List.mem_cons_self
          · exact absurd List.mem_cons_self hnot
        · split at hnot
          · exact ih hp hnot
          · split at hnot
            · rename_i hrecent
              rw [if_pos hrecent]
              exact List.mem_cons_of_mem _ (ih hp hnot)
            · rename_i hidle
              rw [if_neg hidle]
              exact List.mem_cons_of_mem _ (ih hp fun h => hnot (List.mem_cons_of_mem _ h))

theorem le_of_mem_dropWhile (hordered : ps.Pairwise fun p p' => p.id < p'.id) {start : ι}
    {p : Pending ι κ} (hp : p ∈ ps.dropWhile (·.id < start)) : start ≤ p.id := by
  induction ps with
  | nil => cases hp
  | cons q ps ih =>
    rw [List.dropWhile_cons] at hp
    split at hp
    · exact ih (List.pairwise_cons.1 hordered).2 hp
    · rename_i hq
      have hle : start ≤ q.id := by simpa using hq
      rcases List.mem_cons.1 hp with rfl | hp
      · exact hle
      · exact hle.trans ((List.pairwise_cons.1 hordered).1 p hp).le

/-- A scan that has not come to the end has come past its start. -/
theorem lt_scan_next (hordered : ps.Pairwise fun p p' => p.id < p'.id) {start c : ι}
    (hstart : ∀ p ∈ ps, start ≤ p.id)
    (hnext : (s.scan consumer minIdle now (attempts + 1) (count + 1) ps).next = some c) :
    start < c := by
  cases ps with
  | nil => cases hnext
  | cons q ps =>
    have hrest : ∃ p ∈ ps, p.id = c := by
      rw [scan] at hnext
      split at hnext
      · exact scan_next_mem hnext
      · split at hnext <;> exact scan_next_mem hnext
    obtain ⟨p, hp, rfl⟩ := hrest
    exact (hstart q List.mem_cons_self).trans_lt ((List.pairwise_cons.1 hordered).1 p hp)

theorem mem_entries_of_claim {start : ι} {next : Option ι}
    {claimed : List (ι × α)}
    {s' : Stream ι κ α}
    (hclaim : s.claim consumer minIdle now start count = some ((next, claimed), s')) {e : ι × α}
    (he : e ∈ claimed) : e ∈ s.entries := by
  obtain ⟨g, -, heq⟩ := Option.map_eq_some_iff.1 hclaim
  simp only [Prod.mk.injEq] at heq
  obtain ⟨⟨-, rfl⟩, -⟩ := heq
  exact mem_entries_of_scan he

end

/-! ## The invariant -/

/-- Every entry is yet to be read, or is pending. -/
structure GroupInv (s : Stream ι κ α) (g : Group ι κ) : Prop where
  delivered : g.lastDelivered ≤ s.lastId
  ordered : g.pending.Pairwise fun p p' => p.id < p'.id
  bounded : ∀ p ∈ g.pending, p.id ≤ g.lastDelivered
  covered : ∀ e ∈ s.entries, e.1 ≤ g.lastDelivered → ∃ p ∈ g.pending, p.id = e.1

structure Inv [OrderBot ι] (s : Stream ι κ α) : Prop where
  ordered : s.entries.Pairwise fun e e' => e.1 < e'.1
  positive : ∀ e ∈ s.entries, ⊥ < e.1
  bounded : ∀ e ∈ s.entries, e.1 ≤ s.lastId
  group : ∀ g, s.group = some g → s.GroupInv g

section

variable [OrderBot ι] {s s' : Stream ι κ α} {g : Group ι κ} {id : ι} {value : α}

theorem inv_empty : (⟨[], ⊥, none⟩ : Stream ι κ α).Inv where
  ordered := .nil
  positive _ h := by cases h
  bounded _ h := by cases h
  group _ h := by cases h

theorem Inv.add (h : s.Inv) (hid : s.lastId < id) (value : α) : (s.add id value).Inv where
  ordered := by
    refine List.pairwise_append.2 ⟨h.ordered, List.pairwise_singleton _ _, fun e he e' he' => ?_⟩
    rw [List.mem_singleton.1 he']
    exact (h.bounded e he).trans_lt hid
  positive e he := by
    rcases List.mem_append.1 he with he | he
    · exact h.positive e he
    · rw [List.mem_singleton.1 he]
      exact bot_le.trans_lt hid
  bounded e he := by
    rcases List.mem_append.1 he with he | he
    · exact (h.bounded e he).trans hid.le
    · rw [List.mem_singleton.1 he]
      exact le_rfl
  group g hg := by
    have hinv := h.group g hg
    refine ⟨hinv.delivered.trans hid.le, hinv.ordered, hinv.bounded, fun e he hle => ?_⟩
    rcases List.mem_append.1 he with he | he
    · exact hinv.covered e he hle
    · rw [List.mem_singleton.1 he] at hle
      exact absurd (hle.trans hinv.delivered) hid.not_ge

/-- A new group is yet to be given everything. -/
theorem Inv.create (h : s.Inv) (hcreate : s.create ⊥ = some s') : s'.Inv := by
  rw [Stream.create, Option.ite_none_left_eq_some, Option.some.injEq] at hcreate
  obtain ⟨-, rfl⟩ := hcreate
  refine ⟨h.ordered, h.positive, h.bounded, ?_⟩
  rintro g ⟨⟩
  exact ⟨bot_le, .nil, fun p hp => (by cases hp),
    fun e he hle => absurd hle (h.positive e he).not_ge⟩

theorem Inv.destroy (h : s.Inv) : s.destroy.Inv :=
  ⟨h.ordered, h.positive, h.bounded, fun _ hg => by cases hg⟩

/-! ### Reading -/

/-- The last of the new entries is the last that was given out. -/
theorem Inv.le_last (h : s.Inv) {count : ℕ} {e : ι × α} (he : e ∈ s.unread g count) :
    e.1 ≤ ((s.unread g count).getLast?.map (·.1)).getD g.lastDelivered := by
  have hordered : (s.unread g count).Pairwise fun e e' => e.1 < e'.1 :=
    (h.ordered.filter _).take
  generalize s.unread g count = new at he hordered
  induction new using List.reverseRecOn with
  | nil => cases he
  | append_singleton before last _ =>
    simp only [List.getLast?_concat, Option.map_some, Option.getD_some]
    rcases List.mem_append.1 he with he | he
    · exact ((List.pairwise_append.1 hordered).2.2 e he last (List.mem_singleton_self _)).le
    · rw [List.mem_singleton.1 he]

/-- What was not given out comes after what was. -/
theorem Inv.last_cases (h : s.Inv) {count : ℕ} {e : ι × α} (he : e ∈ s.entries)
    (hle : e.1 ≤ ((s.unread g count).getLast?.map (·.1)).getD g.lastDelivered) :
    e.1 ≤ g.lastDelivered ∨ e ∈ s.unread g count := by
  by_cases hold : e.1 ≤ g.lastDelivered
  · exact .inl hold
  right
  have hmem : e ∈ s.entries.filter fun e => g.lastDelivered < e.1 := by
    simpa using ⟨he, not_le.1 hold⟩
  have hordered : (s.entries.filter fun e => g.lastDelivered < e.1).Pairwise
      fun e e' => e.1 < e'.1 := h.ordered.filter _
  have hsplit := List.take_append_drop count (s.entries.filter fun e => g.lastDelivered < e.1)
  rw [← hsplit] at hmem hordered
  rcases List.mem_append.1 hmem with hmem | hmem
  · exact hmem
  · rw [unread] at hle
    cases hlast : (List.take count (s.entries.filter fun e => g.lastDelivered < e.1)).getLast? with
    | none =>
      rw [hlast] at hle
      exact absurd hle hold
    | some last =>
      rw [hlast] at hle
      have hlt := (List.pairwise_append.1 hordered).2.2 last (List.mem_of_getLast? hlast) e hmem
      exact absurd hle hlt.not_ge

theorem Inv.last_le (h : s.Inv) (hg : s.group = some g) (count : ℕ) :
    g.lastDelivered ≤ ((s.unread g count).getLast?.map (·.1)).getD g.lastDelivered ∧
      ((s.unread g count).getLast?.map (·.1)).getD g.lastDelivered ≤ s.lastId := by
  cases hlast : (s.unread g count).getLast? with
  | none => exact ⟨le_rfl, (h.group g hg).delivered⟩
  | some last =>
    have hmem := mem_unread (List.mem_of_getLast? hlast)
    exact ⟨hmem.2.le, h.bounded last hmem.1⟩

/-- What is read becomes pending. -/
theorem Inv.read (h : s.Inv) {consumer : κ} {count : ℕ} {now : ℤ} {new : List (ι × α)}
    (hread : s.read consumer count now = some (new, s')) : s'.Inv := by
  rw [Stream.read, Option.map_eq_some_iff] at hread
  obtain ⟨g, hg, heq⟩ := hread
  rw [Prod.mk.injEq] at heq
  obtain ⟨rfl, rfl⟩ := heq
  have hinv := h.group g hg
  obtain ⟨hge, hle⟩ := h.last_le hg count
  refine ⟨h.ordered, h.positive, h.bounded, ?_⟩
  rintro g' ⟨⟩
  refine ⟨hle, ?_, ?_, fun e he hlast => ?_⟩
  · refine List.pairwise_append.2 ⟨hinv.ordered, ?_, ?_⟩
    · rw [List.pairwise_map]
      exact (h.ordered.filter _).take
    · intro p hp p' hp'
      obtain ⟨e, he, rfl⟩ := List.mem_map.1 hp'
      exact (hinv.bounded p hp).trans_lt (mem_unread he).2
  · intro p hp
    rcases List.mem_append.1 hp with hp | hp
    · exact (hinv.bounded p hp).trans hge
    · obtain ⟨e, he, rfl⟩ := List.mem_map.1 hp
      exact h.le_last he
  · rcases h.last_cases he hlast with hold | hnew
    · obtain ⟨p, hp, hid⟩ := hinv.covered e he hold
      exact ⟨p, List.mem_append_left _ hp, hid⟩
    · exact ⟨_, List.mem_append_right _ (List.mem_map_of_mem hnew), rfl⟩

/-! ### Settling -/

theorem Inv.settle (h : s.Inv) (id : ι) : (s.settle id).Inv := by
  refine ⟨h.ordered.filter _, fun e he => h.positive e (List.mem_of_mem_filter he),
    fun e he => h.bounded e (List.mem_of_mem_filter he), fun g' hg' => ?_⟩
  obtain ⟨g, hg, rfl⟩ := Option.map_eq_some_iff.1 hg'
  have hinv := h.group g hg
  refine ⟨hinv.delivered, hinv.ordered.filter _,
    fun p hp => hinv.bounded p (List.mem_of_mem_filter hp), fun e he hle => ?_⟩
  obtain ⟨hmem, hne⟩ := List.mem_filter.1 he
  obtain ⟨p, hp, hid⟩ := hinv.covered e hmem hle
  refine ⟨p, List.mem_filter.2 ⟨hp, ?_⟩, hid⟩
  rw [hid]
  exact hne

/-! ### Claiming -/

/-- An id stands for one entry. -/
theorem Inv.unique (h : s.Inv) {e e' : ι × α} (he : e ∈ s.entries) (he' : e' ∈ s.entries)
    (hid : e.1 = e'.1) : e = e' := by
  have hnodup : (s.entries.map (·.1)).Nodup := by
    rw [List.Nodup, List.pairwise_map]
    exact h.ordered.imp fun hlt => hlt.ne
  exact List.inj_on_of_nodup_map hnodup he he' hid

theorem Inv.find_eq (h : s.Inv) (hmem : (id, value) ∈ s.entries) : s.find id = some value := by
  cases hfind : s.find id with
  | none =>
    rw [find, Option.map_eq_none_iff, List.find?_eq_none] at hfind
    exact absurd (decide_eq_true rfl) (hfind _ hmem)
  | some other =>
    have heq := h.unique (mem_of_find hfind) hmem rfl
    rw [Prod.mk.injEq] at heq
    rw [heq.2]

/-- What is claimed stays pending. -/
theorem Inv.claim (h : s.Inv) {consumer : κ} {minIdle now : ℤ} {start : ι} {count : ℕ}
    {result : Option ι × List (ι × α)}
    (hclaim : s.claim consumer minIdle now start count = some (result, s')) : s'.Inv := by
  obtain ⟨g, hg, heq⟩ := Option.map_eq_some_iff.1 hclaim
  simp only [Prod.mk.injEq] at heq
  obtain ⟨-, rfl⟩ := heq
  have hinv := h.group g hg
  refine ⟨h.ordered, h.positive, h.bounded, ?_⟩
  rintro g' ⟨⟩
  generalize hpending : (s.scan consumer minIdle now (10 * count) count
    (g.pending.dropWhile (·.id < start))).pending = pending
  have hsub : ((g.pending.takeWhile (·.id < start) ++ pending).map (·.id)).Sublist
      (g.pending.map (·.id)) := by
    conv => rhs; rw [← List.takeWhile_append_dropWhile (p := (·.id < start)) (l := g.pending)]
    rw [List.map_append, List.map_append, ← hpending]
    exact (List.Sublist.refl _).append scan_pending_sublist
  have hmem : ∀ p ∈ g.pending.takeWhile (·.id < start) ++ pending, ∃ p' ∈ g.pending, p'.id = p.id :=
    fun p hp => List.mem_map.1 (hsub.subset (List.mem_map_of_mem hp))
  refine ⟨hinv.delivered, ?_, fun p hp => ?_, fun e he hle => ?_⟩
  · rw [← List.pairwise_map]
    exact (List.pairwise_map.2 hinv.ordered).sublist hsub
  · obtain ⟨p', hp', hid⟩ := hmem p hp
    rw [← hid]
    exact hinv.bounded p' hp'
  · obtain ⟨p, hp, hid⟩ := hinv.covered e he hle
    rw [← List.takeWhile_append_dropWhile (p := (·.id < start)) (l := g.pending)] at hp
    rcases List.mem_append.1 hp with hp | hp
    · exact ⟨p, List.mem_append_left _ hp, hid⟩
    · have hfind : (s.find p.id).isSome := by
        rw [hid, h.find_eq (show (e.1, e.2) ∈ s.entries from he)]
        rfl
      obtain ⟨p', hp', hid'⟩ := mem_scan_pending hp hfind
      rw [← hpending]
      exact ⟨p', List.mem_append_right _ hp', hid'.trans hid⟩

/-! ## Where a claim goes on -/

/-- The entry is pending and has been so for long. -/
def Idle (s : Stream ι κ α) (id : ι) (minIdle now : ℤ) : Prop :=
  ∃ g p, s.group = some g ∧ p ∈ g.pending ∧ p.id = id ∧ minIdle ≤ now - p.deliveredAt

/-- **A claim passes over nothing that is idle**: it gives the entry out, or goes on before it. -/
theorem Inv.claim_covers (h : s.Inv) {consumer : κ} {minIdle now : ℤ} {start : ι} {count : ℕ}
    {next : Option ι} {claimed : List (ι × α)} (hmem : (id, value) ∈ s.entries)
    (hidle : s.Idle id minIdle now) (hstart : start ≤ id)
    (hclaim : s.claim consumer minIdle now start count = some ((next, claimed), s')) :
    (id, value) ∈ claimed ∨ ∃ c, next = some c ∧ c ≤ id := by
  obtain ⟨g, p, hg, hp, rfl, hold⟩ := hidle
  obtain ⟨g', hg', heq⟩ := Option.map_eq_some_iff.1 hclaim
  rw [hg, Option.some.injEq] at hg'
  subst hg'
  simp only [Prod.mk.injEq] at heq
  obtain ⟨⟨rfl, rfl⟩, -⟩ := heq
  have hordered := (h.group g hg).ordered
  rw [← List.takeWhile_append_dropWhile (p := (·.id < start)) (l := g.pending)] at hp hordered
  rcases List.mem_append.1 hp with hp | hp
  · have hlt : p.id < start := by simpa using List.mem_takeWhile_imp hp
    exact absurd hlt hstart.not_gt
  · exact scan_covers (List.pairwise_append.1 hordered).2.1 hp (h.find_eq hmem) hold

/-- A claim that has not come to the end has come past its start. -/
theorem Inv.lt_next (h : s.Inv) {consumer : κ} {minIdle now : ℤ} {start c : ι} {count : ℕ}
    {claimed : List (ι × α)}
    (hclaim : s.claim consumer minIdle now start (count + 1) = some ((some c, claimed), s')) :
    start < c := by
  obtain ⟨g, hg, heq⟩ := Option.map_eq_some_iff.1 hclaim
  simp only [Prod.mk.injEq] at heq
  obtain ⟨⟨hnext, -⟩, -⟩ := heq
  have hordered := (h.group g hg).ordered
  exact lt_scan_next (hordered.sublist (List.dropWhile_sublist _))
    (fun p hp => le_of_mem_dropWhile hordered hp) hnext

/-- What a claim does not give out stays as it is. -/
theorem Inv.mem_pending_claim (h : s.Inv) {consumer : κ} {minIdle now : ℤ} {start : ι} {count : ℕ}
    {p : Pending ι κ} {next : Option ι} {claimed : List (ι × α)} (hg : s.group = some g)
    (hp : p ∈ g.pending)
    (hmem : (p.id, value) ∈ s.entries)
    (hclaim : s.claim consumer minIdle now start count = some ((next, claimed), s'))
    (hnot : (p.id, value) ∉ claimed) : ∃ g', s'.group = some g' ∧ p ∈ g'.pending := by
  obtain ⟨g', hg', heq⟩ := Option.map_eq_some_iff.1 hclaim
  rw [hg, Option.some.injEq] at hg'
  subst hg'
  simp only [Prod.mk.injEq] at heq
  obtain ⟨⟨-, rfl⟩, rfl⟩ := heq
  refine ⟨_, rfl, ?_⟩
  rw [← List.takeWhile_append_dropWhile (p := (·.id < start)) (l := g.pending)] at hp
  rcases List.mem_append.1 hp with hp | hp
  · exact List.mem_append_left _ hp
  · exact List.mem_append_right _ (mem_scan_pending_of_not_claimed hp (h.find_eq hmem) hnot)

end

end Stream

end Streams
