import AegisPlatform.System.GatewayCalls
import AegisPlatform.System.Budgets

/-!
# The two gateway repositories

The in-memory repository and PostgreSQL are given the same calls, one after the other, each
with nobody else about.  In between, leases are replaced and other operations write what
they write, the budget tables apart.

* `Twins` — the two repositories; `Twins.step` is what a call does to them.
* `Twins.Agree` — one book, and the same keys taken; `Twins.Agree.step` is its preservation
  by a call.
* `repositories_agree` — both accept the same calls, as long as request identifiers and keys
  are reused only where both have forgotten them, and settlements are of what was reserved.
-/

namespace AegisPlatform

open Fallible Interleave

/-! ## The two repositories -/

/-- The in-memory repository, and the world of the PostgreSQL one. -/
structure Twins where
  repository : MemoryRepository
  world : World

namespace Twins

variable (py : PyText) (q : String → QuotaLimits) (t : Twins) (c : GatewayCall)

/-- Does the in-memory repository accept the call? -/
def memoryAccepts : Bool :=
  match c.memory py t.repository with
  | .ok .. => true
  | .error .. => false

/-- Does the PostgreSQL repository accept it? -/
def postgresAccepts : Bool :=
  ((c.postgres py).alone AegisPlatform.postgres t.world).any fun result => result.2.isOk

/-- Both are given a call. -/
def step : Twins where
  repository := match c.memory py t.repository with
    | .ok _ r | .error _ r => r
  world := (((c.postgres py).alone AegisPlatform.postgres t.world).map (·.1)).getD t.world

/-- What is taken for granted of a call: the lease is valid, the tenant has the quotas it is
checked against, its usage is not being rebuilt, costs fit their columns as they are, and
identifiers are new. -/
structure Assumes : Prop where
  fence : t.repository.requireFence c.lease c.at' = .ok ()
  current : t.world.Current c.lease
  maintenance : c.request.tenantId ∉ t.world.maintenance
  tenant : c.lease.tenantId ∈ t.world.db.tenants
  configured : t.world.db.quotas.lookup c.request.tenantId = some (q c.request.tenantId)
  stored : (q c.request.tenantId).Stored
  quotas : ∀ route quotas tokenLimit costLimitUsd priceVersion,
    c.action = .reserve route quotas tokenLimit costLimitUsd priceVersion →
    quotas = q c.request.tenantId ∧ t.repository.reservations.lookup (c.ids 0) = none
  exact : ∀ cost ∈ c.cost?, numeric20_10 cost = some cost
  distinct : Set.InjOn c.ids (Set.Iio 5)

/-- What a reservation must not meet: its request identifier reserved or charged under
another key, or its key used up by `record_usage_failure`. -/
structure Unmet : Prop where
  requestId : ∀ id row, t.world.db.reservations.lookup (c.request.tenantId, id) = some row →
    row.isLive = true → row.requestId = c.request.requestId →
    row.idempotencyKey = c.request.idempotencyKey
  key : ∀ id row, t.world.db.reservations.lookup (c.request.tenantId, id) = some row →
    row.isLive = true → row.isActive = false → row.idempotencyKey = c.request.idempotencyKey →
    (t.repository.completed.lookup (c.request.tenantId, c.request.idempotencyKey)).isSome = true

/-- What is settled is what was reserved: the reservation, with the request and under the
lease it was made for.  A charge fits its column. -/
structure Matches (reservation item : BudgetReservation) : Prop where
  held : reservation.held = item.held
  tenant : item.tenantId = c.request.tenantId
  row : ∀ row, t.world.db.reservations.lookup (c.request.tenantId, item.reservationId) = some row →
    row.requestId = c.request.requestId ∧ row.idempotencyKey = c.request.idempotencyKey ∧
      row.runId = c.request.runId ∧ row.leaseToken = c.lease.token ∧
        row.leaseGeneration = c.lease.generation
  tokens : ∀ tokens ∈ c.charges?, tokens < 2 ^ 63

/-- The calls that the repositories agree on. -/
structure Distinct : Prop where
  reserves : c.settles? = none → t.Unmet c ∧ Gateway.AppendsNew (c.postgres py) t.world
  settles : ∀ reservation ∈ c.settles?, ∀ item,
    t.repository.reservations.lookup reservation.reservationId = some item → item.isActive = true →
    t.Matches c reservation item ∧ Gateway.AppendsNew (c.postgres py) t.world

/-- What may happen between two calls. -/
structure Meanwhile (t u : Twins) : Prop where
  reservations : u.repository.reservations = t.repository.reservations
  inflight : u.repository.inflight = t.repository.inflight
  completed : u.repository.completed = t.repository.completed
  budget : u.world.db.budget = t.world.db.budget
  inv : u.world.Inv

/-- The twins that calls lead to which meet a condition. -/
inductive Reaches (Meets : Twins → GatewayCall → Prop) : Twins → Twins → Prop
  | refl (s : Twins) : Reaches Meets s s
  | call {s t : Twins} {c : GatewayCall} : Reaches Meets s t → Assumes q t c → Meets t c →
      Reaches Meets s (t.step py c)
  | meanwhile {s t u : Twins} : Reaches Meets s t → Meanwhile t u → Reaches Meets s u

/-- Nothing is reserved or charged yet. -/
structure Fresh (t : Twins) : Prop where
  reservations : t.repository.reservations = []
  inflight : t.repository.inflight = ∅
  completed : t.repository.completed = ∅
  budget : t.world.db.budget = (∅, ∅)
  inv : t.world.Inv

end Twins

/-! ## Agreement -/

namespace Twins

/-- What a call finds: one book, and the same keys taken. -/
structure Agree (t : Twins) : Prop where
  inv : t.world.Inv
  book : t.repository.book = t.world.db.book
  charges : t.world.db.charges = t.world.db.book.charges
  exact : t.world.db.book.Exact
  keyed : Assoc.Keyed (·.reservationId) t.repository.reservations
  unique : ∀ tenantId id id' row row',
    t.world.db.reservations.lookup (tenantId, id) = some row →
    t.world.db.reservations.lookup (tenantId, id') = some row' →
    row.isLive = true → row'.isLive = true →
    row.requestId = row'.requestId ∨ row.idempotencyKey = row'.idempotencyKey → id = id'
  inflight : ∀ tenantId key, (t.repository.inflight.lookup (tenantId, key)).isSome = true ↔
    ∃ id row, t.world.db.reservations.lookup (tenantId, id) = some row ∧ row.isActive = true ∧
      row.idempotencyKey = key
  completed : ∀ tenantId key, (t.repository.completed.lookup (tenantId, key)).isSome = true →
    ∃ id row, t.world.db.reservations.lookup (tenantId, id) = some row ∧ row.isLive = true ∧
      row.isActive = false ∧ row.idempotencyKey = key

namespace Agree

variable {t u : Twins} {tenantId : String} {id : UUID}

/-- What is left alone still agrees. -/
theorem meanwhile (h : t.Agree) (hu : Meanwhile t u) : u.Agree := by
  obtain ⟨hreservations, hinflight, hcompleted, hbudget, hinv⟩ := hu
  obtain ⟨hrows, husage⟩ := Prod.mk.inj hbudget
  have hbook : u.world.db.book = t.world.db.book := by rw [Database.book, hrows, Database.book]
  refine ⟨hinv, ?_, ?_, ?_, ?_, ?_, ?_, ?_⟩
  · rw [hbook, ← h.book, MemoryRepository.book, hreservations, MemoryRepository.book]
  · rw [hbook, ← h.charges, Database.charges, husage, Database.charges]
  · rw [hbook]
    exact h.exact
  · rw [hreservations]
    exact h.keyed
  · rw [hrows]
    exact h.unique
  · rw [hrows, hinflight]
    exact h.inflight
  · rw [hrows, hcompleted]
    exact h.completed

/-- A row of the table is an item in memory. -/
theorem item_of_row (h : t.Agree) {row : ReservationRow}
    (hrow : t.world.db.reservations.lookup (tenantId, id) = some row) :
    ∃ item, t.repository.reservations.lookup id = some item ∧ item.held = row.held (tenantId, id) := by
  have hmem : row.held (tenantId, id) ∈ t.repository.book := by
    rw [h.book, Database.mem_book]
    exact ⟨(tenantId, id), row, hrow, rfl⟩
  obtain ⟨item, hitem, hheld⟩ := MemoryRepository.mem_book.1 hmem
  have hid : item.reservationId = id := congrArg Held.reservationId hheld
  have hlookup := h.keyed.lookup_name hitem
  rw [hid] at hlookup
  exact ⟨item, hlookup, hheld⟩

/-- An item in memory is a row of the table. -/
theorem row_of_item (h : t.Agree) {item : BudgetReservation}
    (hitem : t.repository.reservations.lookup id = some item) :
    ∃ row, t.world.db.reservations.lookup (item.tenantId, id) = some row ∧
      row.held (item.tenantId, id) = item.held := by
  have hmem : item.held ∈ t.world.db.book := by
    rw [← h.book, MemoryRepository.mem_book]
    exact ⟨item, Assoc.mem_values_of_lookup hitem, rfl⟩
  obtain ⟨⟨tenantId, id'⟩, row, hrow, hheld⟩ := Database.mem_book.1 hmem
  have hid : id' = id := (congrArg Held.reservationId hheld).trans (h.keyed.name_eq hitem)
  have htenant : tenantId = item.tenantId := congrArg Held.tenantId hheld
  subst hid htenant
  exact ⟨row, hrow, hheld⟩

/-! ### After a call -/

/-- **A reservation that both admit.** -/
theorem reserved (h : t.Agree) (hinv : u.world.Inv) (item : BudgetReservation)
    (row : ReservationRow) (value : UUID × String) (hfresh : t.repository.reservations.lookup id = none)
    (hid : item.reservationId = id) (hheld : row.held (tenantId, id) = item.held)
    (hstate : row.state = .active) (hrow : Decimal.OnGrid 10 row.costLimitUsd ∧ 0 ≤ row.costLimitUsd)
    (htokens : 0 ≤ row.tokenLimit)
    (hfree : ∀ id' row', t.world.db.reservations.lookup (tenantId, id') = some row' →
      row'.isLive = true →
      ¬ (row'.requestId = row.requestId ∨ row'.idempotencyKey = row.idempotencyKey))
    (hitems : u.repository.reservations = t.repository.reservations.set id item)
    (hinflight : u.repository.inflight =
      t.repository.inflight.upsert (tenantId, row.idempotencyKey) value)
    (hcompleted : u.repository.completed = t.repository.completed)
    (hrows : u.world.db.reservations = t.world.db.reservations.upsert (tenantId, id) row)
    (husage : u.world.db.usage = t.world.db.usage) : u.Agree := by
  have hnone : t.world.db.reservations.lookup (tenantId, id) = none := by
    cases hlookup : t.world.db.reservations.lookup (tenantId, id) with
    | none => rfl
    | some row' =>
      obtain ⟨item', hitem', -⟩ := h.item_of_row hlookup
      rw [hfresh] at hitem'
      cases hitem'
  have hbook : u.world.db.book = row.held (tenantId, id) ::ₘ t.world.db.book := by
    rw [← Database.book_new hnone, Database.book, hrows, Database.book]
  have hcharge : (row.held (tenantId, id)).charge? = none := by
    unfold Held.charge? ReservationRow.held
    rw [hstate]
  have hcharges : u.world.db.book.charges = t.world.db.book.charges := by
    rw [hbook, Book.charges, Multiset.filterMap_cons_none _ _ hcharge, Book.charges]
  have hlive : row.isLive = true := by rw [ReservationRow.isLive, hstate]
  have hlookup : ∀ k, u.world.db.reservations.lookup k =
      if k = (tenantId, id) then some row else t.world.db.reservations.lookup k := by
    intro k
    rw [hrows, Table.lookup_upsert]
  refine ⟨hinv, ?_, ?_, ?_, ?_, ?_, ?_, ?_⟩
  · rw [hbook, ← h.book, hheld, MemoryRepository.book_new hfresh hitems]
  · rw [hcharges, ← h.charges, Database.charges, husage, Database.charges]
  · refine ⟨fun e he => ?_, hcharges ▸ h.exact.charges, fun e he => ?_, hcharges ▸ h.exact.tokens.2⟩
    · rw [hbook] at he
      rcases Multiset.mem_cons.1 he with rfl | he
      · exact hrow
      · exact h.exact.limits e he
    · rw [hbook] at he
      rcases Multiset.mem_cons.1 he with rfl | he
      · exact htokens
      · exact h.exact.tokens.1 e he
  · rw [hitems]
    exact h.keyed.set hid
  · -- what is new is unlike everything else that is live
    intro tenantId' id₁ id₂ row₁ row₂ h₁ h₂ hlive₁ hlive₂ hsame
    rw [hlookup] at h₁ h₂
    by_cases hk₁ : (tenantId', id₁) = (tenantId, id)
    · by_cases hk₂ : (tenantId', id₂) = (tenantId, id)
      · exact (Prod.mk.inj hk₁).2.trans (Prod.mk.inj hk₂).2.symm
      · rw [if_pos hk₁] at h₁
        rw [if_neg hk₂] at h₂
        cases h₁
        obtain ⟨rfl, rfl⟩ := Prod.mk.inj hk₁
        exact absurd (hsame.imp Eq.symm Eq.symm) (hfree id₂ row₂ h₂ hlive₂)
    · rw [if_neg hk₁] at h₁
      by_cases hk₂ : (tenantId', id₂) = (tenantId, id)
      · rw [if_pos hk₂] at h₂
        cases h₂
        obtain ⟨rfl, rfl⟩ := Prod.mk.inj hk₂
        exact absurd hsame (hfree id₁ row₁ h₁ hlive₁)
      · rw [if_neg hk₂] at h₂
        exact h.unique tenantId' id₁ id₂ row₁ row₂ h₁ h₂ hlive₁ hlive₂ hsame
  · intro tenantId' key
    rw [hinflight, Table.lookup_upsert]
    by_cases hk : (tenantId', key) = (tenantId, row.idempotencyKey)
    · obtain ⟨rfl, rfl⟩ := Prod.mk.inj hk
      rw [if_pos rfl]
      simp only [Option.isSome_some, true_iff]
      exact ⟨id, row, by rw [hlookup, if_pos rfl], by simp [ReservationRow.isActive, hstate], rfl⟩
    · rw [if_neg hk, h.inflight]
      constructor
      · rintro ⟨id', row', hrow', hactive, hkey⟩
        refine ⟨id', row', ?_, hactive, hkey⟩
        rw [hlookup, if_neg ?_]
        · exact hrow'
        · intro hsame
          rw [hsame, hnone] at hrow'
          cases hrow'
      · rintro ⟨id', row', hrow', hactive, hkey⟩
        rw [hlookup] at hrow'
        by_cases hsame : (tenantId', id') = (tenantId, id)
        · rw [if_pos hsame] at hrow'
          cases hrow'
          obtain ⟨rfl, rfl⟩ := Prod.mk.inj hsame
          exact absurd (by rw [hkey]) hk
        · rw [if_neg hsame] at hrow'
          exact ⟨id', row', hrow', hactive, hkey⟩
  · intro tenantId' key hsome
    rw [hcompleted] at hsome
    obtain ⟨id', row', hrow', hlive', hactive, hkey⟩ := h.completed tenantId' key hsome
    refine ⟨id', row', ?_, hlive', hactive, hkey⟩
    rw [hlookup, if_neg ?_]
    · exact hrow'
    · intro hsame
      rw [hsame, hnone] at hrow'
      cases hrow'

/-- **A settlement that both accept.** -/
theorem settled (h : t.Agree) (hinv : u.world.Inv) (state : ReservationState)
    {item old : BudgetReservation} {row : ReservationRow}
    (hrow : t.world.db.reservations.lookup (tenantId, id) = some row) (hactive : row.isActive = true)
    (hold : t.repository.reservations.lookup id = some old) (hheld : item.held = old.held)
    (hheld' : old.held = row.held (tenantId, id)) (hstate : state ≠ .active)
    (hcharges : u.world.db.charges =
      ((row.held (tenantId, id)).settle state).charge?.elim t.world.db.charges (· ::ₘ t.world.db.charges))
    (hcharge : ∀ c ∈ ((row.held (tenantId, id)).settle state).charge?,
      (Decimal.OnGrid 10 c.cost ∧ 0 ≤ c.cost) ∧ 0 ≤ c.tokens)
    (hitems : u.repository.reservations =
      t.repository.reservations.set id { item with state := state })
    (hinflight : u.repository.inflight =
      t.repository.inflight.delete (tenantId, row.idempotencyKey))
    (hcompleted : ∀ k, (u.repository.completed.lookup k).isSome = true →
      (t.repository.completed.lookup k).isSome = true ∨
        k = (tenantId, row.idempotencyKey) ∧ ∀ at', state ≠ .released at')
    (hrows : u.world.db.reservations = t.world.db.reservations.upsert (tenantId, id)
      { row with state := state }) : u.Agree := by
  obtain ⟨rest, hbefore, hafter⟩ :=
    @Database.book_update t.world.db (tenantId, id) row { row with state := state } hrow
  obtain ⟨rest', hbefore', hafter'⟩ := MemoryRepository.book_update hold hitems
  have hbook : u.world.db.book = (row.held (tenantId, id)).settle state ::ₘ rest := by
    rw [Database.book, hrows]
    exact hafter
  have hrest : rest' = rest := by
    have hsame := h.book
    rw [hbefore, hbefore', hheld'] at hsame
    exact (Multiset.cons_inj_right _).1 hsame
  have hbook' : u.repository.book = (row.held (tenantId, id)).settle state ::ₘ rest := by
    rw [hafter', hrest, ← hheld', ← hheld]
    rfl
  have hstateActive : row.state = .active := by simpa [ReservationRow.isActive] using hactive
  have hlive : row.isLive = true := by rw [ReservationRow.isLive, hstateActive]
  have hnot : ReservationRow.isActive { row with state := state } = false := by
    simp [ReservationRow.isActive, hstate]
  have hnone : (row.held (tenantId, id)).charge? = none := by
    unfold Held.charge? ReservationRow.held
    rw [hstateActive]
  have hchargesBefore : t.world.db.book.charges = Book.charges rest := by
    rw [hbefore, Book.charges, Multiset.filterMap_cons_none _ _ hnone, Book.charges]
  have hchargesAfter : u.world.db.book.charges = ((row.held (tenantId, id)).settle state).charge?.elim
      (Book.charges rest) (· ::ₘ Book.charges rest) := by
    rw [hbook, Book.charges]
    cases hnew : ((row.held (tenantId, id)).settle state).charge? with
    | none => rw [Multiset.filterMap_cons_none _ _ hnew]; rfl
    | some c => rw [Multiset.filterMap_cons_some _ _ _ hnew]; rfl
  have hexact := h.exact
  have hcovered : ∀ c ∈ u.world.db.book.charges,
      (Decimal.OnGrid 10 c.cost ∧ 0 ≤ c.cost) ∧ 0 ≤ c.tokens := by
    intro c hc
    rw [hchargesAfter] at hc
    cases hnew : ((row.held (tenantId, id)).settle state).charge? with
    | none =>
      rw [hnew, Option.elim_none, ← hchargesBefore] at hc
      exact ⟨hexact.charges c hc, hexact.tokens.2 c hc⟩
    | some new =>
      rw [hnew, Option.elim_some, Multiset.mem_cons, ← hchargesBefore] at hc
      rcases hc with rfl | hc
      · exact hcharge c hnew
      · exact ⟨hexact.charges c hc, hexact.tokens.2 c hc⟩
  have hlookup : ∀ k, u.world.db.reservations.lookup k =
      if k = (tenantId, id) then some { row with state := state }
      else t.world.db.reservations.lookup k := by
    intro k
    rw [hrows, Table.lookup_upsert]
  -- each row is where it was, with its request and its key
  have hback : ∀ k row₁, u.world.db.reservations.lookup k = some row₁ → ∃ row₀,
      t.world.db.reservations.lookup k = some row₀ ∧ row₀.requestId = row₁.requestId ∧
      row₀.idempotencyKey = row₁.idempotencyKey ∧ (row₁.isLive = true → row₀.isLive = true) ∧
      (row₁.isActive = true → row₀ = row₁ ∧ k ≠ (tenantId, id)) := by
    intro k row₁ hrow₁
    rw [hlookup] at hrow₁
    by_cases hk : k = (tenantId, id)
    · rw [if_pos hk] at hrow₁
      cases hrow₁
      refine ⟨row, by rw [hk, hrow], rfl, rfl, fun _ => hlive, fun hact => ?_⟩
      rw [hnot] at hact
      cases hact
    · rw [if_neg hk] at hrow₁
      exact ⟨row₁, hrow₁, rfl, rfl, fun hlive₁ => hlive₁, fun _ => ⟨rfl, hk⟩⟩
  refine ⟨hinv, by rw [hbook, hbook'], ?_, ⟨fun e he => ?_, fun c hc => (hcovered c hc).1,
    fun e he => ?_, fun c hc => (hcovered c hc).2⟩, ?_, ?_, ?_, ?_⟩
  · rw [hcharges, hchargesAfter, h.charges, hchargesBefore]
  · rw [hbook] at he
    rw [hbefore] at hexact
    rcases Multiset.mem_cons.1 he with rfl | he
    · exact hexact.limits (row.held (tenantId, id)) (Multiset.mem_cons_self ..)
    · exact hexact.limits e (Multiset.mem_cons_of_mem he)
  · rw [hbook] at he
    rw [hbefore] at hexact
    rcases Multiset.mem_cons.1 he with rfl | he
    · exact hexact.tokens.1 (row.held (tenantId, id)) (Multiset.mem_cons_self ..)
    · exact hexact.tokens.1 e (Multiset.mem_cons_of_mem he)
  · rw [hitems]
    refine h.keyed.set ?_
    exact (congrArg Held.reservationId hheld).trans (h.keyed.name_eq hold)
  · intro tenantId' id₁ id₂ row₁ row₂ h₁ h₂ hlive₁ hlive₂ hsame
    obtain ⟨row₁', hrow₁', hrequest₁, hkey₁, hlive₁', -⟩ := hback _ _ h₁
    obtain ⟨row₂', hrow₂', hrequest₂, hkey₂, hlive₂', -⟩ := hback _ _ h₂
    refine h.unique tenantId' id₁ id₂ row₁' row₂' hrow₁' hrow₂' (hlive₁' hlive₁) (hlive₂' hlive₂) ?_
    rw [hrequest₁, hrequest₂, hkey₁, hkey₂]
    exact hsame
  · intro tenantId' key
    rw [hinflight, Table.lookup_delete]
    by_cases hk : (tenantId', key) = (tenantId, row.idempotencyKey)
    · obtain ⟨rfl, rfl⟩ := Prod.mk.inj hk
      rw [if_pos rfl]
      simp only [Option.isSome_none, Bool.false_eq_true, false_iff]
      rintro ⟨id', row', hrow', hactive', hkey⟩
      obtain ⟨row₀, hrow₀, -, hkey₀, hlive₀, hsame⟩ := hback _ _ hrow'
      obtain ⟨rfl, hne⟩ := hsame hactive'
      have hlive' : row₀.isLive = true := by
        have hstate : row₀.state = .active := by simpa [ReservationRow.isActive] using hactive'
        rw [ReservationRow.isLive, hstate]
      exact hne (by rw [h.unique _ _ _ _ _ hrow₀ hrow hlive' hlive (Or.inr hkey)])
    · rw [if_neg hk, h.inflight]
      constructor
      · rintro ⟨id', row', hrow', hactive', hkey⟩
        refine ⟨id', row', ?_, hactive', hkey⟩
        rw [hlookup, if_neg ?_]
        · exact hrow'
        · intro hsame
          rw [hsame, hrow] at hrow'
          cases hrow'
          obtain ⟨rfl, rfl⟩ := Prod.mk.inj hsame
          exact hk (by rw [hkey])
      · rintro ⟨id', row', hrow', hactive', hkey⟩
        obtain ⟨row₀, hrow₀, -, -, -, hsame⟩ := hback _ _ hrow'
        obtain ⟨rfl, -⟩ := hsame hactive'
        exact ⟨id', row₀, hrow₀, hactive', hkey⟩
  · intro tenantId' key hsome
    rcases hcompleted _ hsome with hsome | ⟨hk, hcharged⟩
    · obtain ⟨id', row', hrow', hlive', hactive', hkey⟩ := h.completed tenantId' key hsome
      refine ⟨id', row', ?_, hlive', hactive', hkey⟩
      rw [hlookup, if_neg ?_]
      · exact hrow'
      · intro hsame
        rw [hsame, hrow] at hrow'
        cases hrow'
        rw [hactive] at hactive'
        cases hactive'
    · obtain ⟨rfl, rfl⟩ := Prod.mk.inj hk
      refine ⟨id, { row with state := state }, by rw [hlookup, if_pos rfl], ?_, hnot, rfl⟩
      unfold ReservationRow.isLive
      cases hs : state with
      | released at' => exact absurd hs (hcharged at')
      | _ => rfl

/-! ### Both decide alike -/

variable {py : PyText} {q : String → QuotaLimits} {c : GatewayCall}

theorem reserve_iff (h : t.Agree) (hassumes : Assumes q t c) (hunmet : t.Unmet c)
    {route : RouteDecision} {quotas : QuotaLimits} {tokenLimit : ℤ} {costLimitUsd : Decimal}
    {priceVersion : String}
    (haction : c.action = .reserve route quotas tokenLimit costLimitUsd priceVersion)
    (hcheck : c.check = .ok ()) {db' : Database} :
    c.mutation.run (fun tenantId => tenantId ∈ t.world.maintenance) t.world.db = .ok db' ↔
      c.Admissible py t.repository ∧ db' = { t.world.db with
        reservations := t.world.db.reservations.upsert (c.request.tenantId, c.ids 0)
          (Database.reservationRow c.request c.lease c.reservation c.at') } := by
  obtain ⟨rfl, hfresh⟩ := hassumes.quotas _ _ _ _ _ haction
  have hcost : numeric20_10 costLimitUsd = some costLimitUsd :=
    hassumes.exact costLimitUsd (by rw [GatewayCall.cost?, haction]; rfl)
  have hnew : t.world.db.reservations.lookup (c.request.tenantId, c.ids 0) = none := by
    cases hlookup : t.world.db.reservations.lookup (c.request.tenantId, c.ids 0) with
    | none => rfl
    | some row =>
      obtain ⟨item, hitem, -⟩ := h.item_of_row hlookup
      rw [hfresh] at hitem
      cases hitem
  have hconflicts : ¬ t.world.db.Conflicts c.request ↔
      t.repository.completed.lookup (c.request.tenantId, c.request.idempotencyKey) = none ∧
      t.repository.inflight.lookup (c.request.tenantId, c.request.idempotencyKey) = none := by
    rw [← Option.not_isSome_iff_eq_none, ← Option.not_isSome_iff_eq_none, ← not_or, not_iff_not]
    constructor
    · rintro ⟨id, row, hrow, hlive, hsame⟩
      have hkey : row.idempotencyKey = c.request.idempotencyKey :=
        hsame.elim (hunmet.requestId id row hrow hlive) fun hkey => hkey
      by_cases hactive : row.isActive = true
      · exact Or.inr ((h.inflight _ _).2 ⟨id, row, hrow, hactive, hkey⟩)
      · exact Or.inl (hunmet.key id row hrow hlive (by simpa using hactive) hkey)
    · rintro (hsome | hsome)
      · obtain ⟨id, row, hrow, hlive, -, hkey⟩ := h.completed _ _ hsome
        exact ⟨id, row, hrow, hlive, Or.inr hkey⟩
      · obtain ⟨id, row, hrow, hactive, hkey⟩ := (h.inflight _ _).1 hsome
        have hstate : row.state = .active := by simpa [ReservationRow.isActive] using hactive
        exact ⟨id, row, hrow, by rw [ReservationRow.isLive, hstate], Or.inr hkey⟩
  have hmutation : c.mutation =
      .reserve c.request c.lease c.reservation (q c.request.tenantId) c.at' := by
    rw [GatewayCall.mutation, haction]
  have hreservation : c.reservation =
      Gateway.newReservation c.request tokenLimit costLimitUsd priceVersion (c.ids 0) := by
    rw [GatewayCall.reservation, haction]
  have hexact : t.repository.book.Exact := by
    rw [h.book]
    exact h.exact
  have hid : c.reservation.reservationId = c.ids 0 := by rw [hreservation]; rfl
  have hlimit : c.reservation.tokenLimit = tokenLimit := by rw [hreservation]; rfl
  have hcostLimit : c.reservation.costLimitUsd = costLimitUsd := by rw [hreservation]; rfl
  have hprices : c.reservation.priceVersion = priceVersion := by rw [hreservation]; rfl
  rw [← hcostLimit] at hcost
  rw [← hid] at hnew
  rw [hmutation, GatewayMutation.run,
    Database.reserveRow_iff (by simpa using hassumes.maintenance) hassumes.configured h.charges h.exact
      hassumes.stored hcost hnew, hid, GatewayCall.Admissible, haction, hlimit, hcostLimit, hprices]
  rw [hcostLimit] at hcost
  refine and_congr_left' ?_
  constructor
  · rintro ⟨htokens, hcost0, hprice, hadmits, hfree⟩
    refine ⟨hcheck, htokens, hcost0, hprice, ?_⟩
    rw [MemoryRepository.admission_iff hexact hassumes.stored ⟨onGrid_of_numeric20_10 hcost, hcost0⟩,
      h.book]
    exact ⟨hassumes.fence, (hconflicts.1 hfree).1, (hconflicts.1 hfree).2, hadmits⟩
  · rintro ⟨-, htokens, hcost0, hprice, hadmission⟩
    rw [MemoryRepository.admission_iff hexact hassumes.stored ⟨onGrid_of_numeric20_10 hcost, hcost0⟩,
      h.book] at hadmission
    obtain ⟨-, hcompleted, hinflight, hadmits⟩ := hadmission
    exact ⟨htokens, hcost0, hprice, hadmits, hconflicts.2 ⟨hcompleted, hinflight⟩⟩

/-- What a settlement that PostgreSQL accepts has found. -/
theorem row_of_settlement {reservation : BudgetReservation} (hsettles : c.settles? = some reservation)
    {underMaintenance : String → Bool} {db db' : Database}
    (h : c.mutation.run underMaintenance db = .ok db') :
    ∃ row, db.reservations.lookup (c.request.tenantId, reservation.reservationId) = some row ∧
      row.isActive = true := by
  unfold GatewayCall.mutation at h
  unfold GatewayCall.settles? at hsettles
  cases haction : c.action with
  | reserve =>
    rw [haction] at hsettles
    cases hsettles
  | fail reservation' error =>
    rw [haction] at hsettles h
    cases hsettles
    obtain ⟨row, hrow, hactive, -⟩ := Database.settleReservation_iff.1 h
    exact ⟨row, hrow, hactive⟩
  | _ =>
    rw [haction] at hsettles h
    cases hsettles
    simp only [GatewayMutation.run, Database.chargeRow, bind_eq_ok] at h
    obtain ⟨_, hsettle, -⟩ := h
    obtain ⟨row, hrow, hactive, -⟩ := Database.settleReservation_iff.1 hsettle
    exact ⟨row, hrow, hactive⟩

/-- **A settlement of what was reserved is stored**, with what it charges. -/
theorem run_settlement (hassumes : Assumes q t c) {reservation item : BudgetReservation}
    (hsettles : c.settles? = some reservation) (hmatches : t.Matches c reservation item)
    {row : ReservationRow}
    (hrow : t.world.db.reservations.lookup (c.request.tenantId, reservation.reservationId) = some row)
    (hactive : row.isActive = true)
    (husage : t.world.db.usage.lookup (c.request.tenantId, c.request.requestId) = none) :
    ∃ db, c.mutation.run (fun tenantId => tenantId ∈ t.world.maintenance) t.world.db = .ok db ∧
      db.reservations = t.world.db.reservations.upsert
        (c.request.tenantId, reservation.reservationId) { row with state := c.state } ∧
      db.charges = ((row.held (c.request.tenantId, reservation.reservationId)).settle
        c.state).charge?.elim t.world.db.charges (· ::ₘ t.world.db.charges) := by
  have hid : reservation.reservationId = item.reservationId :=
    congrArg Held.reservationId hmatches.held
  obtain ⟨hrequest, -, hrun, htoken, hgeneration⟩ := hmatches.row row (hid ▸ hrow)
  have hcharge : ∀ response pricing,
      c.charges? = some (usageTotals pricing response).1 →
      c.cost? = some (usageTotals pricing response).2 →
      c.mutation = .charge c.request c.lease reservation response pricing.version
        (usageTotals pricing response).1 (usageTotals pricing response).2 c.at' →
      c.state = .charged (usageTotals pricing response).1 (usageTotals pricing response).2 c.at' →
      ∃ db, c.mutation.run (fun tenantId => tenantId ∈ t.world.maintenance) t.world.db = .ok db ∧
        db.reservations = t.world.db.reservations.upsert
          (c.request.tenantId, reservation.reservationId) { row with state := c.state } ∧
        db.charges = ((row.held (c.request.tenantId, reservation.reservationId)).settle
          c.state).charge?.elim t.world.db.charges (· ::ₘ t.world.db.charges) := by
    intro response pricing htokens hcost hmutation hstate
    rw [hmutation, hstate]
    refine ⟨_, (Database.chargeRow_iff (hassumes.exact _ hcost)
      (Database.bigint_eq response.usage.billableTokens_nonneg (hmatches.tokens _ htokens))).2
      ⟨row, hrow, hactive, htoken, hgeneration, husage, rfl⟩, rfl, ?_⟩
    have hnew := @Database.charges_new _ _ (Database.usageRow c.request response pricing.version
      (usageTotals pricing response).1 (usageTotals pricing response).2 c.at') husage
    refine Eq.trans ?_ (hnew.trans ?_)
    · rfl
    · unfold Held.settle Held.charge? ReservationRow.held UsageRow.charge Database.usageRow
      rw [hrequest, hrun]
      rfl
  cases haction : c.action with
  | reserve =>
    rw [GatewayCall.settles?, haction] at hsettles
    cases hsettles
  | fail reservation' error =>
    rw [GatewayCall.settles?, haction] at hsettles
    cases hsettles
    have hmutation : c.mutation = .release c.request c.lease reservation c.at' := by
      rw [GatewayCall.mutation, haction]
    have hstate : c.state = .released c.at' := by rw [GatewayCall.state, haction]
    rw [hmutation, hstate]
    exact ⟨_, Database.settleReservation_iff.2 ⟨row, hrow, hactive, htoken, hgeneration, rfl⟩, rfl, rfl⟩
  | _ =>
    rw [GatewayCall.settles?, haction] at hsettles
    cases hsettles
    exact hcharge _ _ (by rw [GatewayCall.charges?, haction]) (by rw [GatewayCall.cost?, haction])
      (by rw [GatewayCall.mutation, haction]) (by rw [GatewayCall.state, haction])

/-- The usage of an active reservation is not recorded yet. -/
theorem usage_of_active (h : t.Agree) {row : ReservationRow}
    (hrow : t.world.db.reservations.lookup (tenantId, id) = some row) (hactive : row.isActive = true) :
    t.world.db.usage.lookup (tenantId, row.requestId) = none := by
  have hstate : row.state = .active := by simpa [ReservationRow.isActive] using hactive
  have hlive : row.isLive = true := by rw [ReservationRow.isLive, hstate]
  cases husage : t.world.db.usage.lookup (tenantId, row.requestId) with
  | none => rfl
  | some used =>
    have hmem : used.charge (tenantId, row.requestId) ∈ t.world.db.book.charges := by
      rw [← h.charges, Database.mem_charges]
      exact ⟨_, used, husage, rfl⟩
    -- the reservation it was charged to has the same request
    obtain ⟨e, he, hcharge⟩ := (Multiset.mem_filterMap _ _).1 hmem
    obtain ⟨⟨tenantId', id'⟩, row', hrow', rfl⟩ := Database.mem_book.1 he
    unfold Held.charge? ReservationRow.held at hcharge
    cases hstate' : row'.state with
    | charged tokens cost at' =>
      simp only [hstate', Option.some.injEq] at hcharge
      have htenant : tenantId' = tenantId := congrArg Charge.tenantId hcharge
      have hrequest : row'.requestId = row.requestId := congrArg Charge.requestId hcharge
      subst htenant
      have hid := h.unique _ _ _ _ _ hrow hrow' hlive (by rw [ReservationRow.isLive, hstate'])
        (Or.inl hrequest.symm)
      subst hid
      rw [hrow] at hrow'
      cases hrow'
      rw [hstate] at hstate'
      cases hstate'
    | _ =>
      simp only [hstate'] at hcharge
      cases hcharge

theorem settle_iff (h : t.Agree) (hassumes : Assumes q t c) {reservation : BudgetReservation}
    (hsettles : c.settles? = some reservation) (hdistinct : Distinct py t c)
    (hcheck : c.check = .ok ()) :
    (∃ db, c.mutation.run (fun tenantId => tenantId ∈ t.world.maintenance) t.world.db = .ok db) ↔
      c.Admissible py t.repository := by
  rw [(GatewayCall.admissible_settles hsettles).1, MemoryRepository.requireActive_eq_ok]
  constructor
  · rintro ⟨db, hrun⟩
    obtain ⟨row, hrow, hactive⟩ := row_of_settlement hsettles hrun
    obtain ⟨item, hitem, hheld⟩ := h.item_of_row hrow
    refine ⟨hcheck, ⟨item, hitem, ?_⟩, hassumes.fence⟩
    have hstate : item.state = row.state := congrArg Held.state hheld
    rw [BudgetReservation.isActive, hstate]
    exact hactive
  · rintro ⟨-, ⟨item, hitem, hactive⟩, -⟩
    obtain ⟨hmatches, -⟩ := hdistinct.settles reservation hsettles item hitem hactive
    obtain ⟨row, hrow, hheld⟩ := h.row_of_item hitem
    rw [hmatches.tenant] at hrow hheld
    have hrowActive : row.isActive = true := by
      have hstate : row.state = item.state := congrArg Held.state hheld
      rw [ReservationRow.isActive, hstate]
      exact hactive
    have hid : reservation.reservationId = item.reservationId :=
      congrArg Held.reservationId hmatches.held
    have husage := h.usage_of_active hrow hrowActive
    rw [(hmatches.row row (hid ▸ hrow)).1] at husage
    obtain ⟨db, hrun, -⟩ := run_settlement hassumes hsettles hmatches hrow hrowActive husage
    exact ⟨db, hrun⟩

/-- **Both repositories decide a call alike, and agree after it.** -/
theorem step (h : t.Agree) (hassumes : Assumes q t c) (hdistinct : Distinct py t c) :
    t.memoryAccepts py c = t.postgresAccepts py c ∧ (t.step py c).Agree := by
  obtain ⟨w', r, halone, hinv, hsettled, hchecked, hok⟩ := GatewayCall.postgres_alone py h.inv
    hassumes.current hassumes.tenant hassumes.distinct
  have hworld : (t.step py c).world = w' := by rw [Twins.step, halone]; rfl
  have hpostgres : t.postgresAccepts py c = r.isOk := by rw [postgresAccepts, halone]; rfl
  rw [← hworld] at hinv
  -- what PostgreSQL accepts is admissible in memory
  have hboth : r.isOk = true → c.Admissible py t.repository := by
    intro hr
    rcases hsettled with ⟨⟨e, rfl⟩, -⟩ | ⟨db, _, hrun, -, -⟩
    · cases hr
    · cases hsettles : c.settles? with
      | none =>
        obtain ⟨route, quotas, tokenLimit, costLimitUsd, priceVersion, haction⟩ :=
          GatewayCall.settles_eq_none hsettles
        exact ((h.reserve_iff hassumes (hdistinct.reserves hsettles).1 haction (hchecked hr)).1 hrun).1
      | some reservation =>
        exact (h.settle_iff hassumes hsettles hdistinct (hchecked hr)).1 ⟨db, hrun⟩
  rcases GatewayCall.memory_cases py c t.repository with ⟨hnot, e, he⟩ | ⟨hadmissible, es, hes⟩
  · have hrefused : r.isOk = false := by
      cases hr : r.isOk with
      | false => rfl
      | true => exact absurd (hboth hr) hnot
    refine ⟨by rw [memoryAccepts, he, hpostgres, hrefused], h.meanwhile ?_⟩
    have hrepository : (t.step py c).repository = t.repository := by rw [Twins.step, he]
    refine ⟨by rw [hrepository], by rw [hrepository], by rw [hrepository], ?_, hinv⟩
    rcases hsettled with ⟨-, hbudget⟩ | ⟨db, a, -, hr, -⟩
    · rw [hworld]
      exact hbudget
    · rw [hr] at hrefused
      cases hrefused
  · have hcheck := hadmissible.1
    have hrepository : ∃ events, (t.step py c).repository =
        { c.applied py t.repository with events := events } := by
      rw [Twins.step, hes]
      exact ⟨_, rfl⟩
    obtain ⟨events, hrepository⟩ := hrepository
    cases hsettles : c.settles? with
    | none =>
      obtain ⟨route, quotas, tokenLimit, costLimitUsd, priceVersion, haction⟩ :=
        GatewayCall.settles_eq_none hsettles
      obtain ⟨hunmet, hnew⟩ := hdistinct.reserves hsettles
      have hrun := (h.reserve_iff hassumes hunmet haction hcheck).2 ⟨hadmissible, rfl⟩
      have haccepted := hok hcheck hnew _ hrun
      refine ⟨by rw [memoryAccepts, hes, hpostgres, haccepted]; rfl, ?_⟩
      rcases hsettled with ⟨⟨e, he⟩, -⟩ | ⟨db, _, hrun', -, hbudget⟩
      · rw [haccepted] at he
        cases he
      rw [hrun] at hrun'
      cases hrun'
      obtain ⟨hrows, husage⟩ := Prod.mk.inj hbudget
      rw [← hworld] at hrows husage
      have hchecks : 0 ≤ c.reservation.tokenLimit ∧ 0 ≤ c.reservation.costLimitUsd ∧
          ¬ t.world.db.Conflicts c.request := by
        have hmutation : c.mutation = .reserve c.request c.lease c.reservation quotas c.at' := by
          rw [GatewayCall.mutation, haction]
        rw [hmutation, GatewayMutation.run] at hrun
        exact Database.checks_of_reserveRow hrun
      obtain ⟨htokens, hcost0, hfree⟩ := hchecks
      have hreservation : c.reservation =
          Gateway.newReservation c.request tokenLimit costLimitUsd priceVersion (c.ids 0) := by
        rw [GatewayCall.reservation, haction]
      have hcost : numeric20_10 c.reservation.costLimitUsd = some c.reservation.costLimitUsd := by
        rw [hreservation]
        exact hassumes.exact costLimitUsd (by rw [GatewayCall.cost?, haction]; rfl)
      have happlied := hrepository
      unfold GatewayCall.applied at happlied
      rw [haction] at happlied
      refine h.reserved hinv
        (MemoryRepository.newReservation c.request c.lease tokenLimit costLimitUsd priceVersion c.at'
          (c.ids 0))
        (Database.reservationRow c.request c.lease c.reservation c.at')
        (c.ids 0, Gateway.requestContentDigest py c.request) (hassumes.quotas _ _ _ _ _ haction).2
        rfl ?_ rfl
        ⟨onGrid_of_numeric20_10 hcost, hcost0⟩ htokens ?_ ?_ ?_ ?_ hrows husage
      · rw [hreservation]
        rfl
      · exact fun id' row' hrow' hlive hsame => hfree ⟨id', row', hrow', hlive, hsame⟩
      · rw [happlied]
      · rw [happlied]
        rfl
      · rw [happlied]
    | some reservation =>
      obtain ⟨hadmits, happlied⟩ :=
        @GatewayCall.admissible_settles py c t.repository reservation hsettles
      obtain ⟨-, hactive, -⟩ := hadmits.1 hadmissible
      obtain ⟨item, hitem, hitemActive⟩ := MemoryRepository.requireActive_eq_ok.1 hactive
      obtain ⟨hmatches, hnew⟩ := hdistinct.settles reservation hsettles item hitem hitemActive
      have hid : reservation.reservationId = item.reservationId :=
        congrArg Held.reservationId hmatches.held
      obtain ⟨row, hrow, hheld⟩ := h.row_of_item hitem
      rw [hmatches.tenant] at hrow hheld
      have hrowActive : row.isActive = true := by
        have hstate : row.state = item.state := congrArg Held.state hheld
        rw [ReservationRow.isActive, hstate]
        exact hitemActive
      obtain ⟨hrequest, hkey, -⟩ := hmatches.row row (hid ▸ hrow)
      have husage := h.usage_of_active hrow hrowActive
      rw [hrequest] at husage
      obtain ⟨db, hrun, hrows, hcharges⟩ := run_settlement hassumes hsettles hmatches hrow hrowActive
        husage
      have haccepted := hok hcheck hnew db hrun
      refine ⟨by rw [memoryAccepts, hes, hpostgres, haccepted]; rfl, ?_⟩
      rcases hsettled with ⟨⟨e, he⟩, -⟩ | ⟨db', _, hrun', -, hbudget⟩
      · rw [haccepted] at he
        cases he
      rw [hrun] at hrun'
      cases hrun'
      obtain ⟨hrows', husage'⟩ := Prod.mk.inj hbudget
      rw [← hworld] at hrows' husage'
      rw [happlied] at hrepository
      refine h.settled hinv c.state hrow hrowActive hitem hmatches.held hheld.symm ?_ ?_ ?_ ?_ ?_ ?_
        (hrows'.trans hrows)
      · exact (GatewayCall.state_of_settles hsettles).1
      · rw [Database.charges, husage', ← Database.charges, hcharges]
      · intro charge hcharge
        unfold Held.settle Held.charge? ReservationRow.held at hcharge
        cases hstate : c.state with
        | charged tokens cost at' =>
          simp only [hstate, Option.mem_def, Option.some.injEq] at hcharge
          subst hcharge
          obtain ⟨hcost, hcost0, htokens⟩ := (GatewayCall.state_of_settles hsettles).2 _ _ _ hstate
          exact ⟨⟨onGrid_of_numeric20_10 (hassumes.exact cost hcost), hcost0⟩, htokens⟩
        | _ =>
          simp only [hstate, Option.mem_def] at hcharge
          cases hcharge
      · rw [hrepository]
        rfl
      · rw [hrepository, hkey]
        rfl
      · intro k hk
        rw [hrepository] at hk
        unfold MemoryRepository.settledBy at hk
        cases hresponse : c.response? with
        | none =>
          simp only [hresponse] at hk
          exact Or.inl hk
        | some response =>
          simp only [hresponse, Table.lookup_upsert] at hk
          by_cases hsame : k = (c.request.tenantId, c.request.idempotencyKey)
          · exact Or.inr ⟨by rw [hkey, hsame], GatewayCall.state_of_response hresponse⟩
          · rw [if_neg hsame] at hk
            exact Or.inl hk

theorem of_fresh (h : t.Fresh) : t.Agree := by
  obtain ⟨hrows, husage⟩ := Prod.mk.inj h.budget
  have hbook : t.world.db.book = 0 := by
    rw [Database.book, hrows]
    rfl
  have hlookup : ∀ k, t.world.db.reservations.lookup k = none := by
    intro k
    rw [hrows]
    rfl
  have hcharges : t.world.db.book.charges = 0 := by
    rw [hbook]
    rfl
  refine ⟨h.inv, ?_, ?_, ⟨fun e he => ?_, fun c hc => ?_, fun e he => ?_, fun c hc => ?_⟩,
    ?_, ?_, ?_, ?_⟩
  · rw [hbook, MemoryRepository.book, h.reservations]
    rfl
  · rw [hcharges, Database.charges, husage]
    rfl
  · rw [hbook] at he
    exact absurd he (Multiset.notMem_zero e)
  · rw [hcharges] at hc
    exact absurd hc (Multiset.notMem_zero c)
  · rw [hbook] at he
    exact absurd he (Multiset.notMem_zero e)
  · rw [hcharges] at hc
    exact absurd hc (Multiset.notMem_zero c)
  · rw [h.reservations]
    exact ⟨List.nodup_nil, fun _ h => absurd h List.not_mem_nil⟩
  · intro tenantId id id' row row' hrow
    rw [hlookup] at hrow
    cases hrow
  · intro tenantId key
    rw [h.inflight]
    refine ⟨fun h => (by cases h), ?_⟩
    rintro ⟨id, row, hrow, -⟩
    rw [hlookup] at hrow
    cases hrow
  · intro tenantId key hsome
    rw [h.completed] at hsome
    cases hsome

/-- **Calls that meet the condition keep the repositories in agreement.** -/
theorem reaches {s : Twins} (hrun : Reaches py q (Distinct py) s t) (hs : s.Fresh) : t.Agree := by
  induction hrun with
  | refl => exact of_fresh hs
  | call _ hassumes hdistinct ih => exact (ih.step hassumes hdistinct).2
  | meanwhile _ hmeanwhile ih => exact ih.meanwhile hmeanwhile

end Agree

end Twins

/-- The store once the sample item is claimed, under the sample lease. -/
def claimedStore : World :=
  ((Sys.drive postgres anyTest (claimedSchedule.map (Scheduled.choice sampleText))
    budgetPlatform).map (·.store)).getD budgetPlatform.store

/-- Both repositories at that point. -/
def claimedTwins : Twins := ⟨.initial [sampleLease], claimedStore⟩

/-- A reservation of 17 tokens. -/
def twinReserve (first : ℕ) : GatewayCall :=
  ⟨sampleContext, sampleModelRequest, sampleLease, .reserve sampleRoute sampleQuotas 17 1 "v1", 0,
    sampleIds first⟩

/-- The response failed validation, and its usage is charged. -/
def twinUsageFailure : GatewayCall :=
  ⟨sampleContext, sampleModelRequest, sampleLease,
    .recordUsageFailure memoryReservation sampleResponse freePricing invalidResponse, 0,
    sampleIds 70⟩

theorem claimedStore_inv : claimedStore.Inv := by
  unfold claimedStore
  cases h : Sys.drive postgres anyTest (claimedSchedule.map (Scheduled.choice sampleText))
      budgetPlatform with
  | none => exact World.inv_initial _ _ _
  | some s =>
    have hrun : Run postgres (AnyCall sampleText) (fun _ _ => True) budgetPlatform s := by
      refine Sys.drive_run h (fun c hc => ?_) meets_of_anyTest
      obtain ⟨x, -, rfl⟩ := List.mem_map.1 hc
      cases x with
      | call c => exact fun _ => ⟨c, rfl⟩
      | go i => trivial
      | wait duration => exact tick_wait duration
    exact (run_inv (lawfully_anyCall sampleText) hrun (World.inv_initial _ _ _) follows_initial).1

namespace Twins

/-- The test of what is taken for granted. -/
def assumesTest (quotas : QuotaLimits) (t : Twins) (c : GatewayCall) : Bool :=
  (t.repository.requireFence c.lease c.at').isOk &&
  ((t.world.db.workLeases.lookup c.lease.key).any fun row =>
    row.holds c.lease.token c.lease.generation && t.world.clock < row.expiresAt) &&
  !t.world.locked c.lease.key && decide (c.request.tenantId ∉ t.world.maintenance) &&
  decide (c.lease.tenantId ∈ t.world.db.tenants) &&
  decide (t.world.db.quotas.lookup c.request.tenantId = some quotas) &&
  (match c.action with
    | .reserve _ quotas' .. =>
      decide (quotas' = quotas) && (t.repository.reservations.lookup (c.ids 0)).isNone
    | _ => true) &&
  (c.cost?.all fun cost => numeric20_10 cost = some cost) &&
  ((List.range 5).all fun m => (List.range 5).all fun n => c.ids m ≠ c.ids n || m = n)

theorem assumes_of_test {quotas : QuotaLimits} {t : Twins} {c : GatewayCall} (hstored : quotas.Stored)
    (h : assumesTest quotas t c = true) : Assumes (fun _ => quotas) t c := by
  simp only [assumesTest, Bool.and_eq_true, decide_eq_true_eq, Bool.not_eq_true'] at h
  obtain ⟨⟨⟨⟨⟨⟨⟨⟨hfence, hrow⟩, hfree⟩, hmaintenance⟩, htenant⟩, hconfigured⟩, haction⟩, hcost⟩,
    hids⟩ := h
  obtain ⟨row, hlookup, hholds⟩ := (Option.any_eq_true _ _).1 hrow
  simp only [Bool.and_eq_true, decide_eq_true_eq] at hholds
  refine ⟨?_, ⟨⟨row, hlookup, hholds⟩, hfree⟩, hmaintenance, htenant, hconfigured, hstored, ?_, ?_, ?_⟩
  · cases hok : t.repository.requireFence c.lease c.at' with
    | ok u => rfl
    | error e =>
      rw [hok] at hfence
      cases hfence
  · intro route quotas' tokenLimit costLimitUsd priceVersion hreserve
    rw [hreserve] at haction
    simpa using haction
  · intro cost hc
    rw [Option.mem_def] at hc
    rw [hc] at hcost
    simpa using hcost
  · intro m hm n hn hsame
    have hall := List.all_eq_true.1 (List.all_eq_true.1 hids m (List.mem_range.2 hm)) n
      (List.mem_range.2 hn)
    simpa [hsame] using hall

end Twins

/-- The test of new events. -/
def appendsNewTest (p : Op Unit) (w : World) : Bool :=
  (p.commitsAlone postgres w).all fun
    | .closeFenced _ a => a.events.all fun e => w.db.events.all fun e' =>
      e'.tenantId ≠ e.tenantId || (e'.eventId ≠ e.eventId && e'.idempotencyKey ≠ e.idempotencyKey)
    | _ => true

theorem appendsNew_of_test {p : Op Unit} {w : World} (h : appendsNewTest p w = true) :
    Gateway.AppendsNew p w := by
  intro tx a ha e he e' he' htenant
  have hall := List.all_eq_true.1 (List.all_eq_true.1 (List.all_eq_true.1 h _ ha) e he) e' he'
  simpa [htenant] using hall

theorem sampleQuotas_stored : sampleQuotas.Stored :=
  ⟨by decide, by norm_num [sampleQuotas], by norm_num [sampleQuotas]⟩

/-- Both after the reservation. -/
def reservedTwins : Twins := claimedTwins.step sampleText (twinReserve 60)

/-- Both after it is charged. -/
def chargedTwins : Twins := reservedTwins.step sampleText twinUsageFailure

/-- What the sample runs rest on, computed at once. -/
theorem twin_tests :
    (claimedStore.db.reservations.entries = [] ∧ claimedStore.db.usage.entries = []) ∧
    (Twins.assumesTest sampleQuotas claimedTwins (twinReserve 60) = true ∧
      Twins.assumesTest sampleQuotas reservedTwins twinUsageFailure = true ∧
      Twins.assumesTest sampleQuotas chargedTwins (twinReserve 80) = true) ∧
    (appendsNewTest ((twinReserve 60).postgres sampleText) claimedStore = true ∧
      appendsNewTest (twinUsageFailure.postgres sampleText) reservedTwins.world = true) ∧
    ((reservedTwins.repository.reservations.lookup (UUID.ofNat 60) = some memoryReservation) ∧
      (reservedTwins.world.db.reservations.lookup ("acme", UUID.ofNat 60)).all fun row =>
        row.requestId = UUID.ofNat 50 && row.idempotencyKey = "call-1" && row.runId = UUID.ofNat 1 &&
          row.leaseToken = UUID.ofNat 20 && row.leaseGeneration = 1) ∧
    reservedTwins.memoryAccepts sampleText twinUsageFailure = true ∧
    chargedTwins.memoryAccepts sampleText (twinReserve 80) = true ∧
    chargedTwins.postgresAccepts sampleText (twinReserve 80) = false := by
  decide +kernel

theorem claimedTwins_fresh : claimedTwins.Fresh := by
  obtain ⟨⟨hrows, husage⟩, -⟩ := twin_tests
  exact ⟨rfl, rfl, rfl, Prod.ext (AList.ext hrows) (AList.ext husage), claimedStore_inv⟩

theorem assumes_claimed : Twins.Assumes (fun _ => sampleQuotas) claimedTwins (twinReserve 60) :=
  Twins.assumes_of_test sampleQuotas_stored twin_tests.2.1.1

theorem assumes_reserved : Twins.Assumes (fun _ => sampleQuotas) reservedTwins twinUsageFailure :=
  Twins.assumes_of_test sampleQuotas_stored twin_tests.2.1.2.1

end AegisPlatform
