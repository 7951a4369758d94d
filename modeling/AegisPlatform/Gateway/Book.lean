import AegisPlatform.Gateway.Memory
import AegisPlatform.Gateway.Recorded
import Mathlib.Algebra.BigOperators.Group.Multiset.Basic

/-!
# The budget book

What a gateway repository decides on: the reservations with what became of them.  The
in-memory repository keeps them in a dictionary and PostgreSQL in a table, with a second
table for what was charged; the book is what the two have in common.

* `Held`, `Charge` — an entry of the book, and what it was charged.
* `MemoryRepository.book`, `Database.book`, `Database.charges` — the book of each.
* `Book.admits` — the comparison of an admission, on a book and in exact amounts.
* `MemoryRepository.admits_iff`, `Database.admits_iff` — both repositories make it.
-/

namespace AegisPlatform

open Fallible

/-! ## Entries -/

/-- An entry of the book: a reservation of a tenant. -/
structure Held where
  tenantId : String
  reservationId : UUID
  runId : UUID
  requestId : UUID
  tokenLimit : ℤ
  costLimitUsd : Decimal
  state : ReservationState
  deriving DecidableEq

/-- What a call was charged. -/
structure Charge where
  tenantId : String
  requestId : UUID
  runId : UUID
  tokens : ℤ
  cost : Decimal
  recordedAt : Timestamp
  deriving DecidableEq

def BudgetReservation.held (item : BudgetReservation) : Held where
  tenantId := item.tenantId
  reservationId := item.reservationId
  runId := item.runId
  requestId := item.requestId
  tokenLimit := item.tokenLimit
  costLimitUsd := item.costLimitUsd
  state := item.state

def ReservationRow.held (k : String × UUID) (row : ReservationRow) : Held where
  tenantId := k.1
  reservationId := k.2
  runId := row.runId
  requestId := row.requestId
  tokenLimit := row.tokenLimit
  costLimitUsd := row.costLimitUsd
  state := row.state

def UsageRow.charge (k : String × UUID) (row : UsageRow) : Charge where
  tenantId := k.1
  requestId := k.2
  runId := row.runId
  tokens := row.totalTokens
  cost := row.costUsd
  recordedAt := row.recordedAt

namespace Held

/-- What the entry was charged, if it was. -/
def charge? (h : Held) : Option Charge :=
  match h.state with
  | .charged tokens cost at' => some ⟨h.tenantId, h.requestId, h.runId, tokens, cost, at'⟩
  | _ => none

/-- The entry in a new state. -/
def settle (state : ReservationState) (h : Held) : Held := { h with state := state }

/-- An entry of the tenant, and of the run if one is given. -/
def isOf (tenantId : String) (runId : Option UUID) (h : Held) : Bool :=
  h.tenantId = tenantId && runId.all (h.runId = ·)

theorem isOf_iff {tenantId : String} {runId : Option UUID} {h : Held} :
    h.isOf tenantId runId = true ↔ h.tenantId = tenantId ∧ runId.all (h.runId = ·) = true := by
  simp [isOf]

end Held

theorem BudgetReservation.charge_held {item : BudgetReservation} {c : Charge}
    (h : item.held.charge? = some c) :
    item.chargedTokens = c.tokens ∧ item.chargedCostUsd = c.cost := by
  unfold Held.charge? BudgetReservation.held at h
  unfold BudgetReservation.chargedTokens BudgetReservation.chargedCostUsd
  cases hstate : item.state with
  | charged tokens cost at' =>
    rw [hstate] at h
    cases h
    exact ⟨rfl, rfl⟩
  | _ =>
    rw [hstate] at h
    cases h

theorem BudgetReservation.exists_charge {item : BudgetReservation} {since : Option Timestamp}
    (h : item.isChargedSince since = true) : ∃ c, item.held.charge? = some c := by
  unfold BudgetReservation.isChargedSince at h
  unfold Held.charge? BudgetReservation.held
  cases hstate : item.state with
  | charged tokens cost at' => exact ⟨_, rfl⟩
  | _ =>
    rw [hstate] at h
    cases h

/-- A charge of the tenant, of the run and since the instant where these are given. -/
def Charge.isOf (tenantId : String) (runId : Option UUID) (since : Option Timestamp) (c : Charge) :
    Bool :=
  c.tenantId = tenantId && runId.all (c.runId = ·) && since.all (· ≤ c.recordedAt)

theorem Charge.isOf_iff {tenantId : String} {runId : Option UUID} {since : Option Timestamp}
    {c : Charge} : c.isOf tenantId runId since = true ↔ (c.tenantId = tenantId ∧
      runId.all (c.runId = ·) = true) ∧ since.all (· ≤ c.recordedAt) = true := by
  simp [isOf]

/-- A book. -/
abbrev Book := Multiset Held

def MemoryRepository.book (r : MemoryRepository) : Book := ↑(r.reservations.values.map (·.held))

def Database.book (db : Database) : Book := ↑(db.reservations.rows.map fun e => e.2.held e.1)

def Database.charges (db : Database) : Multiset Charge := ↑(db.usage.rows.map fun e => e.2.charge e.1)

namespace Book

/-- What was charged. -/
def charges (b : Book) : Multiset Charge := b.filterMap Held.charge?

/-- The active reservations, of a tenant or of one run of it. -/
def active (b : Book) (tenantId : String) (runId : Option UUID) : Multiset Held :=
  b.filter fun h => h.isOf tenantId runId = true ∧ h.state = .active

/-- What is reserved and charged, in tokens. -/
def tokens (b : Book) (tenantId : String) (runId : Option UUID) (since : Option Timestamp) : ℤ :=
  ((b.active tenantId runId).map (·.tokenLimit)).sum +
    ((b.charges.filter fun c => c.isOf tenantId runId since = true).map (·.tokens)).sum

/-- What is reserved and charged, in dollars. -/
def cost (b : Book) (tenantId : String) (runId : Option UUID) (since : Option Timestamp) : ℚ :=
  ((b.active tenantId runId).map (·.costLimitUsd)).sum +
    ((b.charges.filter fun c => c.isOf tenantId runId since = true).map (·.cost)).sum

/-- The four limits, in exact amounts. -/
def Admits (b : Book) (quotas : QuotaLimits) (tenantId : String) (runId : UUID) (at' : Timestamp)
    (tokenLimit : ℤ) (costLimit : Decimal) : Prop :=
  b.tokens tenantId (some runId) none + tokenLimit ≤ quotas.maxRunTokens ∧
  b.cost tenantId (some runId) none + costLimit ≤ quotas.maxRunCostUsd ∧
  b.tokens tenantId none (some (Calendar.monthStart at')) + tokenLimit ≤
    quotas.maxTenantTokensPerPeriod ∧
  b.cost tenantId none (some (Calendar.monthStart at')) + costLimit ≤
    quotas.maxTenantCostUsdPerPeriod

/-- No amount of the book is negative, and its costs are multiples of `10 ^ (-10)`. -/
structure Exact (b : Book) : Prop where
  limits : ∀ h ∈ b, Decimal.OnGrid 10 h.costLimitUsd ∧ 0 ≤ h.costLimitUsd
  charges : ∀ c ∈ b.charges, Decimal.OnGrid 10 c.cost ∧ 0 ≤ c.cost
  tokens : (∀ h ∈ b, 0 ≤ h.tokenLimit) ∧ ∀ c ∈ b.charges, 0 ≤ c.tokens

end Book

/-! ## Both repositories sum up the book -/

section

variable {M : Type} [AddCommMonoid M]

theorem sum_filter_map {α β : Type} (l : List α) (view : α → β) (p : β → Prop) [DecidablePred p]
    (f : β → M) :
    (((↑(l.map view) : Multiset β).filter p).map f).sum =
      ((l.filter fun a => p (view a)).map fun a => f (view a)).sum := by
  rw [Multiset.filter_coe, Multiset.map_coe, Multiset.sum_coe, List.filter_map, List.map_map]
  rfl

namespace MemoryRepository

variable (r : MemoryRepository) (tenantId : String) (runId : Option UUID)

theorem sum_active (f : Held → M) :
    ((r.active tenantId runId).map fun item => f item.held).sum =
      ((r.book.active tenantId runId).map f).sum := by
  rw [book, Book.active, sum_filter_map]
  congr 2
  refine List.filter_congr fun item _ => ?_
  rw [Bool.eq_iff_iff]
  simp [Held.isOf_iff, BudgetReservation.held, BudgetReservation.isActive]

theorem sum_charged (since : Option Timestamp) (f : BudgetReservation → M) (g : Charge → M)
    (hfg : ∀ item c, item.held.charge? = some c → f item = g c) :
    ((r.charged tenantId runId since).map f).sum =
      ((r.book.charges.filter fun c => c.isOf tenantId runId since = true).map g).sum := by
  rw [charged, book, Book.charges, Multiset.filterMap_coe, Multiset.filter_coe, Multiset.map_coe,
    Multiset.sum_coe]
  induction r.reservations.values with
  | nil => rfl
  | cons item rest ih =>
    rw [List.map_cons, List.filterMap_cons]
    cases hcharge : item.held.charge? with
    | none =>
      have hnot : item.isChargedSince since = false := by
        unfold Held.charge? BudgetReservation.held at hcharge
        unfold BudgetReservation.isChargedSince
        cases hstate : item.state <;> simp_all
      rw [List.filter_cons_of_neg (by simp [hnot])]
      exact ih
    | some c =>
      have hscope : (item.tenantId = tenantId && runId.all (item.runId = ·) &&
          item.isChargedSince since) = c.isOf tenantId runId since := by
        unfold Held.charge? BudgetReservation.held at hcharge
        unfold BudgetReservation.isChargedSince Charge.isOf
        cases hstate : item.state with
        | charged tokens cost at' =>
          rw [hstate] at hcharge
          cases hcharge
          rfl
        | _ =>
          rw [hstate] at hcharge
          cases hcharge
      dsimp only
      by_cases hp : c.isOf tenantId runId since = true
      · rw [List.filter_cons_of_pos (by rw [hscope]; exact hp),
          List.filter_cons_of_pos (by simpa using hp), List.map_cons, List.map_cons,
          List.sum_cons, List.sum_cons, hfg item c hcharge, ih]
      · rw [List.filter_cons_of_neg (by rw [hscope]; exact hp),
          List.filter_cons_of_neg (by simpa using hp), ih]

end MemoryRepository

namespace Database

variable (db : Database) (tenantId : String)

theorem sum_activeReservations (runId : Option UUID) (f : Held → M) (g : ReservationRow → M)
    (hfg : ∀ k row, f (ReservationRow.held k row) = g row) :
    ((db.activeReservations tenantId runId).map g).sum =
      ((db.book.active tenantId runId).map f).sum := by
  rw [book, Book.active, sum_filter_map, activeReservations, List.map_map]
  have hg : (g ∘ fun e : (String × UUID) × ReservationRow => e.2) =
      fun e => f (ReservationRow.held e.1 e.2) := funext fun e => (hfg e.1 e.2).symm
  rw [hg]
  congr 2
  refine List.filter_congr fun e _ => ?_
  rw [Bool.eq_iff_iff]
  simp [Held.isOf_iff, ReservationRow.held, ReservationRow.isActive, and_right_comm]

theorem sum_periodUsage (at' : Timestamp) (f : Charge → M) (g : UsageRow → M)
    (hfg : ∀ k row, f (UsageRow.charge k row) = g row) :
    ((db.periodUsage tenantId at').map g).sum = ((db.charges.filter fun c =>
      c.isOf tenantId none (some (Calendar.monthStart at')) = true).map f).sum := by
  rw [charges, sum_filter_map, periodUsage, List.map_map]
  have hg : (g ∘ fun e : (String × UUID) × UsageRow => e.2) =
      fun e => f (UsageRow.charge e.1 e.2) := funext fun e => (hfg e.1 e.2).symm
  rw [hg]
  congr 2
  refine List.filter_congr fun e _ => ?_
  rw [Bool.eq_iff_iff]
  simp [Charge.isOf_iff, UsageRow.charge]

theorem sum_runUsage (runId : UUID) (f : Charge → M) (g : UsageRow → M)
    (hfg : ∀ k row, f (UsageRow.charge k row) = g row) :
    ((db.runUsage tenantId runId).map g).sum = ((db.charges.filter fun c =>
      c.isOf tenantId (some runId) none = true).map f).sum := by
  rw [charges, sum_filter_map, runUsage, List.map_map]
  have hg : (g ∘ fun e : (String × UUID) × UsageRow => e.2) =
      fun e => f (UsageRow.charge e.1 e.2) := funext fun e => (hfg e.1 e.2).symm
  rw [hg]
  congr 2
  refine List.filter_congr fun e _ => ?_
  rw [Bool.eq_iff_iff]
  simp [Charge.isOf_iff, UsageRow.charge]

end Database

end

/-! ## Admission -/

/-- Limits that the columns of `tenant_quotas` hold. -/
structure QuotaLimits.Stored (q : QuotaLimits) : Prop where
  runTokens : q.maxRunTokens < 2 ^ 63
  runCost : q.maxRunCostUsd < 10 ^ 14
  tenantCost : q.maxTenantCostUsdPerPeriod < 10 ^ 14

/-- A computed cost compares with a stored limit as the exact one does. -/
theorem tracks_le_iff {x y limit cost : Decimal} (h : Decimal.Tracks 10 x y)
    (hcost : Decimal.OnGrid 10 cost ∧ 0 ≤ cost) (hlimit : limit < 10 ^ 14) :
    Decimal.add x cost ≤ limit ↔ y + cost ≤ limit := by
  refine (h.add (.of_onGrid hcost.1 hcost.2)).le_iff (hlimit.trans ?_)
  norm_num

theorem onGrid_sum {m : Multiset Decimal} (h : ∀ x ∈ m, Decimal.OnGrid 10 x ∧ 0 ≤ x) :
    Decimal.OnGrid 10 m.sum ∧ 0 ≤ m.sum := by
  induction m using Multiset.induction with
  | empty => exact ⟨.zero 10, le_rfl⟩
  | cons x m ih =>
    obtain ⟨hx, hx0⟩ := h x (Multiset.mem_cons_self x m)
    obtain ⟨hm, hm0⟩ := ih fun y hy => h y (Multiset.mem_cons_of_mem hy)
    rw [Multiset.sum_cons]
    exact ⟨hx.add hm, add_nonneg hx0 hm0⟩

namespace Book

variable {b : Book}

/-- Exact sums, added once. -/
theorem Exact.tracks_cost (h : b.Exact) (tenantId : String) (runId : Option UUID)
    (since : Option Timestamp) :
    Decimal.Tracks 10 (Decimal.add (((b.active tenantId runId).map (·.costLimitUsd)).sum)
        ((b.charges.filter fun c => c.isOf tenantId runId since = true).map (·.cost)).sum)
      (b.cost tenantId runId since) := by
  have hactive : ∀ x ∈ (b.active tenantId runId).map (·.costLimitUsd),
      Decimal.OnGrid 10 x ∧ 0 ≤ x := by
    intro x hx
    obtain ⟨e, he, rfl⟩ := Multiset.mem_map.1 hx
    exact h.limits e (Multiset.mem_of_mem_filter he)
  have hcharged : ∀ x ∈ (b.charges.filter fun c => c.isOf tenantId runId since = true).map (·.cost),
      Decimal.OnGrid 10 x ∧ 0 ≤ x := by
    intro x hx
    obtain ⟨c, hc, rfl⟩ := Multiset.mem_map.1 hx
    exact h.charges c (Multiset.mem_of_mem_filter hc)
  obtain ⟨hg, h0⟩ := onGrid_sum hactive
  obtain ⟨hg', h0'⟩ := onGrid_sum hcharged
  exact (Decimal.Tracks.of_onGrid hg h0).add (.of_onGrid hg' h0')

/-- Nothing is reserved or charged a negative number of tokens. -/
theorem Exact.tokens_nonneg (h : b.Exact) (tenantId : String) (runId : Option UUID)
    (since : Option Timestamp) : 0 ≤ b.tokens tenantId runId since := by
  refine add_nonneg (Multiset.sum_nonneg fun x hx => ?_) (Multiset.sum_nonneg fun x hx => ?_)
  · obtain ⟨e, he, rfl⟩ := Multiset.mem_map.1 hx
    exact h.tokens.1 e (Multiset.mem_of_mem_filter he)
  · obtain ⟨c, hc, rfl⟩ := Multiset.mem_map.1 hx
    exact h.tokens.2 c (Multiset.mem_of_mem_filter hc)

end Book

namespace MemoryRepository

variable {r : MemoryRepository}

/-- The cost that `reserve` computes tracks the exact one. -/
theorem tracks_cost (hexact : r.book.Exact) (tenantId : String) (runId : Option UUID)
    (since : Option Timestamp) :
    Decimal.Tracks 10 (Decimal.add
        (Decimal.sum ((r.active tenantId runId).map (·.costLimitUsd)))
        (Decimal.sum ((r.charged tenantId runId since).map (·.chargedCostUsd))))
      (r.book.cost tenantId runId since) := by
  rw [Book.cost, ← sum_active r tenantId runId (·.costLimitUsd),
    ← sum_charged r tenantId runId since (·.chargedCostUsd) (·.cost) ?_]
  · refine (Decimal.Tracks.sum fun x hx => ?_).add (Decimal.Tracks.sum fun x hx => ?_)
    · obtain ⟨item, hitem, rfl⟩ := List.mem_map.1 hx
      refine hexact.limits item.held ?_
      exact Multiset.mem_coe.2 (List.mem_map.2 ⟨item, List.mem_of_mem_filter hitem, rfl⟩)
    · obtain ⟨item, hitem, rfl⟩ := List.mem_map.1 hx
      obtain ⟨hmem, hcharged⟩ := List.mem_filter.1 hitem
      obtain ⟨c, hc⟩ := BudgetReservation.exists_charge (Bool.and_eq_true_iff.1 hcharged).2
      rw [(BudgetReservation.charge_held hc).2]
      refine hexact.charges c ((Multiset.mem_filterMap _ _).2 ⟨item.held, ?_, hc⟩)
      exact Multiset.mem_coe.2 (List.mem_map.2 ⟨item, hmem, rfl⟩)
  · exact fun item c hc => (BudgetReservation.charge_held hc).2

/-- **The in-memory admission is the comparison of its book**, where the fence is valid and
the key is free. -/
theorem admission_iff {py : PyText} {request : ModelRequest} {lease : WorkLease}
    {quotas : QuotaLimits} {tokenLimit : ℤ} {costLimitUsd : Decimal} {at' : Timestamp}
    (hexact : r.book.Exact) (hquotas : quotas.Stored)
    (hcost : Decimal.OnGrid 10 costLimitUsd ∧ 0 ≤ costLimitUsd) :
    r.admission py request lease quotas tokenLimit costLimitUsd at' = .ok () ↔
      r.requireFence lease at' = .ok () ∧
      r.completed.lookup (request.tenantId, request.idempotencyKey) = none ∧
      r.inflight.lookup (request.tenantId, request.idempotencyKey) = none ∧
      r.book.Admits quotas request.tenantId request.runId at' tokenLimit costLimitUsd := by
  have htokens : ∀ runId since,
      ((r.active request.tenantId runId).map (·.tokenLimit)).sum +
        ((r.charged request.tenantId runId since).map (·.chargedTokens)).sum =
      r.book.tokens request.tenantId runId since := by
    intro runId since
    rw [Book.tokens, ← sum_active r request.tenantId runId (·.tokenLimit),
      ← sum_charged r request.tenantId runId since (·.chargedTokens) (·.tokens)
        fun item c hc => (BudgetReservation.charge_held hc).1]
    rfl
  unfold admission Book.Admits
  simp only [bind_eq_ok]
  cases hfence : r.requireFence lease at' with
  | error e => simp
  | ok u =>
    cases hcompleted : r.completed.lookup (request.tenantId, request.idempotencyKey) with
    | some stored => simp
    | none =>
      simp only [bind_eq_ok, raiseIf_eq_ok, checkBudget_eq_ok, htokens,
        tracks_le_iff (tracks_cost hexact _ _ _) hcost hquotas.runCost,
        tracks_le_iff (tracks_cost hexact _ _ _) hcost hquotas.tenantCost]
      simp

end MemoryRepository

/-- A value that the column stores as it is has ten decimals. -/
theorem onGrid_of_numeric20_10 {x y : Decimal} (h : numeric20_10 x = some y) :
    Decimal.OnGrid 10 y := by
  simp only [numeric20_10, Option.ite_none_right_eq_some, Option.some.injEq] at h
  obtain ⟨-, rfl⟩ := h
  by_cases hx : x < 0
  · rw [if_pos hx]
    exact ⟨-⌊|x| * 10 ^ 10 + 1 / 2⌋, by push_cast; ring⟩
  · rw [if_neg hx]
    exact ⟨⌊|x| * 10 ^ 10 + 1 / 2⌋, rfl⟩

namespace Database

variable {db : Database}

/-- A live reservation of the tenant has the request's identifier or its key. -/
def Conflicts (db : Database) (request : ModelRequest) : Prop :=
  ∃ id row, db.reservations.lookup (request.tenantId, id) = some row ∧ row.isLive = true ∧
    (row.requestId = request.requestId ∨ row.idempotencyKey = request.idempotencyKey)

theorem conflicts_iff {request : ModelRequest} :
    (db.reservations.rows.any fun row => row.1.1 = request.tenantId && row.2.isLive &&
      (row.2.requestId = request.requestId ||
        row.2.idempotencyKey = request.idempotencyKey)) = true ↔ db.Conflicts request := by
  rw [List.any_eq_true]
  constructor
  · rintro ⟨⟨⟨tenantId, id⟩, row⟩, hmem, h⟩
    simp only [Bool.and_eq_true, Bool.or_eq_true, decide_eq_true_eq] at h
    obtain ⟨⟨rfl, hlive⟩, hsame⟩ := h
    exact ⟨id, row, Table.mem_rows.1 hmem, hlive, hsame⟩
  · rintro ⟨id, row, hrow, hlive, hsame⟩
    refine ⟨((request.tenantId, id), row), Table.mem_rows.2 hrow, ?_⟩
    simpa [hlive] using hsame

/-- **The admission of PostgreSQL is the comparison of its book.** -/
theorem checkBudget_iff {request : ModelRequest} {quotas : QuotaLimits} {tokenLimit : ℤ}
    {costLimitUsd : Decimal} {at' : Timestamp} (hcharges : db.charges = db.book.charges)
    (hexact : db.book.Exact) (hquotas : quotas.Stored)
    (hcost : Decimal.OnGrid 10 costLimitUsd ∧ 0 ≤ costLimitUsd) :
    checkBudget quotas
      (((db.activeReservations request.tenantId none).map (·.tokenLimit)).sum +
        ((db.periodUsage request.tenantId at').map (·.totalTokens)).sum)
      (Decimal.add ((db.activeReservations request.tenantId none).map (·.costLimitUsd)).sum
        ((db.periodUsage request.tenantId at').map (·.costUsd)).sum)
      (((db.activeReservations request.tenantId (some request.runId)).map (·.tokenLimit)).sum +
        ((db.runUsage request.tenantId request.runId).map (·.totalTokens)).sum)
      (Decimal.add
        ((db.activeReservations request.tenantId (some request.runId)).map (·.costLimitUsd)).sum
        ((db.runUsage request.tenantId request.runId).map (·.costUsd)).sum)
      tokenLimit costLimitUsd = .ok () ↔
      db.book.Admits quotas request.tenantId request.runId at' tokenLimit costLimitUsd := by
  rw [checkBudget_eq_ok, sum_activeReservations db request.tenantId none (·.tokenLimit) _
      fun _ _ => rfl, sum_activeReservations db request.tenantId none (·.costLimitUsd) _
      fun _ _ => rfl, sum_activeReservations db request.tenantId (some request.runId) (·.tokenLimit) _
      fun _ _ => rfl, sum_activeReservations db request.tenantId (some request.runId)
      (·.costLimitUsd) _ fun _ _ => rfl, sum_periodUsage db request.tenantId at' (·.tokens) _
      fun _ _ => rfl, sum_periodUsage db request.tenantId at' (·.cost) _ fun _ _ => rfl,
    sum_runUsage db request.tenantId request.runId (·.tokens) _ fun _ _ => rfl,
    sum_runUsage db request.tenantId request.runId (·.cost) _ fun _ _ => rfl, hcharges,
    tracks_le_iff (hexact.tracks_cost _ _ _) hcost hquotas.runCost,
    tracks_le_iff (hexact.tracks_cost _ _ _) hcost hquotas.tenantCost]
  rfl

/-- The row of a reservation. -/
def reservationRow (request : ModelRequest) (lease : WorkLease) (reservation : BudgetReservation)
    (at' : Timestamp) : ReservationRow where
  runId := request.runId
  workId := lease.workId
  requestId := request.requestId
  idempotencyKey := request.idempotencyKey
  tokenLimit := reservation.tokenLimit
  costLimitUsd := reservation.costLimitUsd
  priceVersion := reservation.priceVersion
  state := .active
  leaseToken := lease.token
  leaseGeneration := lease.generation
  createdAt := at'
  expiresAt := lease.expiresAt

theorem bigint_eq {n : ℤ} (h0 : 0 ≤ n) (hlt : n < 2 ^ 63) : bigint n = some n := by
  unfold bigint
  rw [if_pos ⟨by omega, hlt⟩]

/-- What a row of the table has passed. -/
theorem checks_of_reserveRow {db' : Database} {underMaintenance : String → Bool}
    {request : ModelRequest} {lease : WorkLease} {reservation : BudgetReservation}
    {quotas : QuotaLimits} {at' : Timestamp}
    (h : db.reserveRow underMaintenance request lease reservation quotas at' = .ok db') :
    0 ≤ reservation.tokenLimit ∧ 0 ≤ reservation.costLimitUsd ∧ ¬ db.Conflicts request := by
  simp only [reserveRow, bind_eq_ok, raiseIf_eq_ok, conflicts_iff, not_or, not_le, not_lt] at h
  obtain ⟨-, -, -, -, -, -, -, -, -, ⟨htokens, hcost, -⟩, -, hfree, -⟩ := h
  exact ⟨htokens.le, hcost, hfree⟩

/-- **What the mutation of `reserve` comes down to**, away from a rebuild and where the
quotas are those configured. -/
theorem reserveRow_iff {db' : Database} {underMaintenance : String → Bool} {request : ModelRequest}
    {lease : WorkLease} {reservation : BudgetReservation} {quotas : QuotaLimits} {at' : Timestamp}
    (hfree : underMaintenance request.tenantId = false)
    (hconfigured : db.quotas.lookup request.tenantId = some quotas)
    (hcharges : db.charges = db.book.charges) (hexact : db.book.Exact) (hquotas : quotas.Stored)
    (hcost : numeric20_10 reservation.costLimitUsd = some reservation.costLimitUsd)
    (hnew : db.reservations.lookup (request.tenantId, reservation.reservationId) = none) :
    db.reserveRow underMaintenance request lease reservation quotas at' = .ok db' ↔
      (1 ≤ reservation.tokenLimit ∧ 0 ≤ reservation.costLimitUsd ∧ reservation.priceVersion ≠ "" ∧
        db.book.Admits quotas request.tenantId request.runId at' reservation.tokenLimit
          reservation.costLimitUsd ∧ ¬ db.Conflicts request) ∧
      db' = { db with
        reservations := db.reservations.upsert (request.tenantId, reservation.reservationId)
          (reservationRow request lease reservation at') } := by
  have hgrid := onGrid_of_numeric20_10 hcost
  simp only [reserveRow, bind_eq_ok, raiseIf_eq_ok, orRaise_eq_ok, pure_eq_ok, hfree, hconfigured,
    conflicts_iff, hcost, Table.insertNew_eq_some, hnew, not_or, not_le, not_lt, Option.some.injEq,
    not_not]
  constructor
  · rintro ⟨_, -, _, rfl, _, -, _, hbudget, _, ⟨htokens, hcost0, hprice⟩, _, hconflicts, limit,
      hlimit, _, rfl, rows, ⟨-, rfl⟩, rfl⟩
    have hadmits := (checkBudget_iff hcharges hexact hquotas ⟨hgrid, hcost0⟩).1 hbudget
    have hsame : limit = reservation.tokenLimit := by
      simp only [bigint, Option.ite_none_right_eq_some, Option.some.injEq] at hlimit
      exact hlimit.2.symm
    subst hsame
    exact ⟨⟨htokens, hcost0, hprice, hadmits, hconflicts⟩, rfl⟩
  · rintro ⟨⟨htokens, hcost0, hprice, hadmits, hconflicts⟩, rfl⟩
    have hbudget := (checkBudget_iff hcharges hexact hquotas ⟨hgrid, hcost0⟩).2 hadmits
    have hlimit : bigint reservation.tokenLimit = some reservation.tokenLimit := by
      have hrun := hadmits.1
      have hused := hexact.tokens_nonneg request.tenantId (some request.runId) none
      have hmax := hquotas.runTokens
      exact bigint_eq (by omega) (by omega)
    exact ⟨(), by simp, quotas, rfl, (), rfl, (), hbudget, (), ⟨htokens, hcost0, hprice⟩, (),
      hconflicts, _, hlimit, _, rfl, _, ⟨trivial, rfl⟩, rfl⟩

end Database

/-! ## Settlement -/

namespace Database

variable {db db' : Database} {tenantId : String} {reservationId : UUID} {lease : WorkLease}

theorem settleReservation_iff {state : ReservationState} :
    db.settleReservation tenantId reservationId lease state = .ok db' ↔
      ∃ row, db.reservations.lookup (tenantId, reservationId) = some row ∧ row.isActive = true ∧
        row.leaseToken = lease.token ∧ row.leaseGeneration = lease.generation ∧
        db' = { db with
          reservations := db.reservations.upsert (tenantId, reservationId)
            { row with state := state } } := by
  simp only [settleReservation, bind_eq_ok, orRaise_eq_ok, Table.updateWhere_eq_some, pure_eq_ok,
    Bool.and_eq_true, decide_eq_true_eq]
  constructor
  · rintro ⟨rows, ⟨row, hrow, ⟨⟨hactive, htoken⟩, hgeneration⟩, rfl⟩, rfl⟩
    exact ⟨row, hrow, hactive, htoken, hgeneration, rfl⟩
  · rintro ⟨row, hrow, hactive, htoken, hgeneration, rfl⟩
    exact ⟨_, ⟨row, hrow, ⟨⟨hactive, htoken⟩, hgeneration⟩, rfl⟩, rfl⟩

/-- The usage row of a charge. -/
def usageRow (request : ModelRequest) (response : ModelResponse) (priceVersion : String)
    (tokens : ℤ) (cost : Decimal) (at' : Timestamp) : UsageRow where
  runId := request.runId
  provider := response.model.provider
  model := response.model.model
  priceVersion := priceVersion
  inputTokens := response.usage.inputTokens
  outputTokens := response.usage.outputTokens
  cacheReadTokens := response.usage.cacheReadTokens
  cacheWriteTokens := response.usage.cacheWriteTokens
  reasoningTokens := response.usage.reasoningTokens
  totalTokens := tokens
  costUsd := cost
  recordedAt := at'

/-- **What the mutation of a charge comes down to**, of an amount the columns hold. -/
theorem chargeRow_iff {request : ModelRequest} {reservation : BudgetReservation}
    {response : ModelResponse} {priceVersion : String} {tokens : ℤ} {cost : Decimal}
    {at' : Timestamp} (hcost : numeric20_10 cost = some cost) (htokens : bigint tokens = some tokens) :
    db.chargeRow request lease reservation response priceVersion tokens cost at' = .ok db' ↔
      ∃ row, db.reservations.lookup (request.tenantId, reservation.reservationId) = some row ∧
        row.isActive = true ∧ row.leaseToken = lease.token ∧
        row.leaseGeneration = lease.generation ∧
        db.usage.lookup (request.tenantId, request.requestId) = none ∧
        db' = { db with
          reservations := db.reservations.upsert (request.tenantId, reservation.reservationId)
            { row with state := .charged tokens cost at' }
          usage := db.usage.upsert (request.tenantId, request.requestId)
            (usageRow request response priceVersion tokens cost at') } := by
  simp only [chargeRow, bind_eq_ok, orRaise_eq_ok, Table.insertNew_eq_some, pure_eq_ok, hcost,
    htokens, Option.some.injEq, Option.getD_some, settleReservation_iff]
  constructor
  · rintro ⟨_, ⟨row, hrow, hactive, htoken, hgeneration, rfl⟩, _, rfl, _, rfl, usage, ⟨hnew, rfl⟩, rfl⟩
    exact ⟨row, hrow, hactive, htoken, hgeneration, hnew, rfl⟩
  · rintro ⟨row, hrow, hactive, htoken, hgeneration, hnew, rfl⟩
    exact ⟨_, ⟨row, hrow, hactive, htoken, hgeneration, rfl⟩, _, rfl, _, rfl, _, ⟨hnew, rfl⟩, rfl⟩

/-! ## The book after a change -/

theorem book_new {k : String × UUID} {row : ReservationRow} (h : db.reservations.lookup k = none) :
    Database.book { db with reservations := db.reservations.upsert k row } =
      row.held k ::ₘ db.book := by
  rw [book, book, Table.rows_upsert, List.map_cons, ← Multiset.cons_coe]
  exact congrArg _ (Multiset.coe_eq_coe.2 ((Table.rows_delete_perm h).map _))

/-- A change of one reservation. -/
theorem book_update {k : String × UUID} {old row : ReservationRow}
    (h : db.reservations.lookup k = some old) :
    ∃ rest, db.book = old.held k ::ₘ rest ∧
      Database.book { db with reservations := db.reservations.upsert k row } =
        row.held k ::ₘ rest := by
  refine ⟨↑((db.reservations.delete k).rows.map fun e => e.2.held e.1), ?_, ?_⟩
  · rw [book, Multiset.cons_coe]
    exact Multiset.coe_eq_coe.2 ((Table.rows_perm_delete h).map _)
  · rw [book, Table.rows_upsert, List.map_cons, Multiset.cons_coe]

theorem charges_new {k : String × UUID} {row : UsageRow} (h : db.usage.lookup k = none) :
    Database.charges { db with usage := db.usage.upsert k row } = row.charge k ::ₘ db.charges := by
  rw [charges, charges, Table.rows_upsert, List.map_cons, ← Multiset.cons_coe]
  exact congrArg _ (Multiset.coe_eq_coe.2 ((Table.rows_delete_perm h).map _))

theorem mem_book {e : Held} : e ∈ db.book ↔
    ∃ k row, db.reservations.lookup k = some row ∧ row.held k = e := by
  rw [book, Multiset.mem_coe, List.mem_map]
  constructor
  · rintro ⟨⟨k, row⟩, hmem, rfl⟩
    exact ⟨k, row, Table.mem_rows.1 hmem, rfl⟩
  · rintro ⟨k, row, hrow, rfl⟩
    exact ⟨(k, row), Table.mem_rows.2 hrow, rfl⟩

theorem mem_charges {c : Charge} : c ∈ db.charges ↔
    ∃ k row, db.usage.lookup k = some row ∧ row.charge k = c := by
  rw [charges, Multiset.mem_coe, List.mem_map]
  constructor
  · rintro ⟨⟨k, row⟩, hmem, rfl⟩
    exact ⟨k, row, Table.mem_rows.1 hmem, rfl⟩
  · rintro ⟨k, row, hrow, rfl⟩
    exact ⟨(k, row), Table.mem_rows.2 hrow, rfl⟩

end Database

namespace MemoryRepository

variable {r : MemoryRepository} {id : UUID}

theorem mem_book {e : Held} : e ∈ r.book ↔ ∃ item ∈ r.reservations.values, item.held = e := by
  rw [book, Multiset.mem_coe, List.mem_map]

theorem book_new {r' : MemoryRepository} {item : BudgetReservation}
    (h : r.reservations.lookup id = none)
    (hr' : r'.reservations = r.reservations.set id item) : r'.book = item.held ::ₘ r.book := by
  rw [book, book, hr', Assoc.values_set_new h, List.map_append, List.map_singleton,
    ← Multiset.coe_add, add_comm, Multiset.coe_singleton, Multiset.singleton_add]

/-- A change of one reservation. -/
theorem book_update {r' : MemoryRepository} {old item : BudgetReservation}
    (h : r.reservations.lookup id = some old)
    (hr' : r'.reservations = r.reservations.set id item) :
    ∃ rest, r.book = old.held ::ₘ rest ∧ r'.book = item.held ::ₘ rest := by
  obtain ⟨left, right, hold, hnew⟩ := Assoc.values_set h item
  refine ⟨↑((left ++ right).map (·.held)), ?_, ?_⟩
  · rw [book, hold, Multiset.cons_coe]
    exact Multiset.coe_eq_coe.2 (List.perm_middle.map _)
  · rw [book, hr', hnew, Multiset.cons_coe]
    exact Multiset.coe_eq_coe.2 (List.perm_middle.map _)

end MemoryRepository

end AegisPlatform
