import AegisPlatform.System.Appends

/-!
# A cursor over the history

A position is drawn when an event is inserted and seen when its transaction commits, and
a transaction of the same tenant may draw later and commit earlier — were it not for the
row of the tenant that an append locks before it draws.  So a reader that continues after
the last position it has received misses nothing.

* `Reading` — a reader that pages through `read_all` while calls go on.
* `history_step` — what becomes visible comes last.
* `selectAll_eq` — a page is what comes next.
* `commit_safe_cursor` — the reader has received a first part of the history, and all of
  it once it has read on.
-/

namespace AegisPlatform

open Fallible Transactions

/-! ## Positions -/

/-- The first event is stored at a lower position. -/
def Precedes (e e' : EventEnvelope) : Prop :=
  ∃ p p', e.globalPosition = some p ∧ e'.globalPosition = some p' ∧ p < p'

theorem Ordered.pairwise {next : ℕ} {es : List EventEnvelope} (h : Ordered next es) :
    es.Pairwise Precedes := by
  obtain ⟨positions, hes, hsorted, -⟩ := h
  have hpositions : (positions.map some).Pairwise fun o o' : Option ℕ =>
      ∃ p p', o = some p ∧ o' = some p' ∧ p < p' := by
    refine List.pairwise_map.2 ((List.pairwise_cons.1 hsorted).2.imp fun {p p'} hlt => ?_)
    exact ⟨p, p', rfl, rfl, hlt⟩
  rw [← hes, List.pairwise_map] at hpositions
  exact hpositions

theorem Ordered.pos {next : ℕ} {es : List EventEnvelope} (h : Ordered next es)
    {e : EventEnvelope} (he : e ∈ es) : ∃ p, e.globalPosition = some p ∧ 0 < p := by
  obtain ⟨positions, hes, hsorted, -⟩ := h
  have hmem : e.globalPosition ∈ positions.map some := by
    rw [← hes]
    exact List.mem_map_of_mem he
  obtain ⟨p, hp, heq⟩ := List.mem_map.1 hmem
  exact ⟨p, heq.symm, (List.pairwise_cons.1 hsorted).1 p hp⟩

/-- What becomes visible comes last. -/
theorem history_step {tenants : List String} {clock : Timestamp} {s s' : LedgerSys}
    {a : Action AppendCall} (hrun : LedgerRun tenants clock s) (hstep : LedgerStep s a s')
    (t : String) : ∃ new, s'.shared.history t = s.shared.history t ++ new ∧
      ∀ e ∈ s.shared.history t, ∀ e' ∈ new, Precedes e e' := by
  have hsame : s'.shared.db.events = s.shared.db.events → ∃ new,
      s'.shared.history t = s.shared.history t ++ new ∧
      ∀ e ∈ s.shared.history t, ∀ e' ∈ new, Precedes e e' := by
    intro hevents
    refine ⟨[], ?_, fun e _ e' he' => (by cases he')⟩
    unfold Ledger.history
    rw [hevents, List.append_nil]
  have hordered := ((hrun.step hstep).good.inv.ordered t).pairwise
  rcases ledger_step hstep with ⟨i, g, r, rfl, hi, -⟩ | ⟨-, hkeeps⟩ | htables
  · obtain ⟨own, held, heq, hreturns⟩ := hrun.returning hi hstep
    rcases hreturns with ⟨-, happends⟩ | ⟨-, hrepeats⟩
    · have hhistory := happends.appending.history t
      rw [← heq] at hhistory
      split at hhistory
      · rename_i ht
        subst ht
        rw [hhistory] at hordered
        exact ⟨own.events, hhistory, (List.pairwise_append.1 hordered).2.2⟩
      · refine ⟨[], ?_, fun e _ e' he' => (by cases he')⟩
        rw [hhistory, List.append_nil]
    · refine hsame ?_
      rw [heq, hrepeats.apply_eq]
  · exact hsame hkeeps.events
  · refine hsame ?_
    rw [htables]

/-- The events of a tenant up to a position. -/
def Ledger.upTo (l : Ledger) (tenantId : String) (position : ℕ) : List EventEnvelope :=
  (l.history tenantId).filter fun e => e.globalPosition.any (· ≤ position)

/-- The events of a tenant after a position. -/
def Ledger.after (l : Ledger) (tenantId : String) (position : ℕ) : List EventEnvelope :=
  (l.history tenantId).filter fun e => e.globalPosition.any (position < ·)

/-- A page is what comes next after a position. -/
theorem selectAll_after {l : Ledger} (hl : l.Inv) (t : String) (position : ℕ) (limit : ℤ) :
    l.selectAll t position limit = ((l.after t position).take limit.toNat).map l.replayed := by
  have hfilter : ((l.history t).map l.replayed).filter (fun row =>
      row.event.globalPosition.any fun p => (position : ℤ) < p) =
        (l.after t position).map l.replayed := by
    unfold Ledger.after
    rw [List.filter_map]
    refine congrArg (List.map _) (List.filter_congr fun e _ => ?_)
    cases h : e.globalPosition <;> simp [Ledger.replayed, h]
  have hsorted : ((l.after t position).map l.replayed).Pairwise fun row row' =>
      decide (row.event.globalPosition.getD 0 ≤ row'.event.globalPosition.getD 0) = true := by
    refine List.pairwise_map.2 (((hl.ordered t).pairwise.sublist List.filter_sublist).imp ?_)
    rintro e e' ⟨p, p', hp, hp', hlt⟩
    simp [Ledger.replayed, hp, hp', hlt.le]
  unfold Ledger.selectAll
  rw [hfilter, List.mergeSort_of_pairwise hsorted, ← List.map_take]

/-! ## A reader -/

/-- Where a reader continues: after the last position it has received. -/
def cursor (received : List EventEnvelope) : ℕ :=
  (received.getLast?.bind (·.globalPosition)).getD 0

/-- A reader of the tenant's history reads `n` pages while calls go on. -/
inductive Reading (context : TenantContext) (s : LedgerSys) (received : List EventEnvelope) :
    ℕ → LedgerSys → List EventEnvelope → Prop
  | refl : Reading context s received 0 s received
  | step {n : ℕ} {s' s'' : LedgerSys} {received' : List EventEnvelope} {a : Action AppendCall} :
      Reading context s received n s' received' → LedgerStep s' a s'' →
      Reading context s received n s'' received'
  | page {n : ℕ} {s' : LedgerSys} {received' : List EventEnvelope} {limit : ℤ} {page : EventPage} :
      Reading context s received n s' received' →
      s'.shared.readAll context (cursor received') limit = .ok page →
      Reading context s received (n + 1) s' (received' ++ page.events.map (·.event))

section

variable {l : Ledger} {t : String} {received rest : List EventEnvelope}

/-- What a reader has received lies at or before its cursor, and what comes next after
it. -/
theorem cursor_spec (hl : l.Inv) (hhistory : l.history t = received ++ rest) :
    (∀ e ∈ received, ∃ p, e.globalPosition = some p ∧ p ≤ cursor received) ∧
      ∀ e ∈ rest, ∃ p, e.globalPosition = some p ∧ cursor received < p := by
  have hordered := hl.ordered t
  rw [hhistory] at hordered
  obtain ⟨hreceived, -, hrest⟩ := List.pairwise_append.1 hordered.pairwise
  rcases List.eq_nil_or_concat received with rfl | ⟨init, last, rfl⟩
  · refine ⟨fun e he => (by cases he), fun e he => ?_⟩
    exact hordered.pos (List.mem_append_right _ he)
  · rw [List.concat_eq_append] at *
    obtain ⟨q, hq, -⟩ := hordered.pos (List.mem_append_left _ (List.mem_append_right _
      (List.mem_singleton.2 rfl)))
    have hcursor : cursor (init ++ [last]) = q := by
      unfold cursor
      rw [List.getLast?_concat, Option.bind_some, hq]
      rfl
    rw [hcursor]
    constructor
    · intro e he
      rcases List.mem_append.1 he with he | he
      · obtain ⟨p, p', hp, hp', hlt⟩ :=
          (List.pairwise_append.1 hreceived).2.2 e he last (List.mem_singleton.2 rfl)
        rw [hq, Option.some.injEq] at hp'
        exact ⟨p, hp, hp' ▸ hlt.le⟩
      · rw [List.mem_singleton.1 he]
        exact ⟨q, hq, le_rfl⟩
    · intro e he
      obtain ⟨p, p', hp, hp', hlt⟩ := hrest last (List.mem_append_right _
        (List.mem_singleton.2 rfl)) e he
      rw [hq, Option.some.injEq] at hp
      exact ⟨p', hp', hp ▸ hlt⟩

/-- **A page is what comes next** after what a reader has received. -/
theorem selectAll_eq (hl : l.Inv) (hhistory : l.history t = received ++ rest) (limit : ℤ) :
    l.selectAll t (cursor received) limit = (rest.take limit.toNat).map l.replayed := by
  obtain ⟨hbefore, hafter⟩ := cursor_spec hl hhistory
  have hrest : l.after t (cursor received) = rest := by
    unfold Ledger.after
    rw [hhistory, List.filter_append]
    have hnone : received.filter (fun e => e.globalPosition.any (cursor received < ·)) = [] := by
      refine List.filter_eq_nil_iff.2 fun e he => ?_
      obtain ⟨p, hp, hle⟩ := hbefore e he
      simp [hp, hle]
    have hall : rest.filter (fun e => e.globalPosition.any (cursor received < ·)) = rest := by
      refine List.filter_eq_self.2 fun e he => ?_
      obtain ⟨p, hp, hlt⟩ := hafter e he
      simp [hp, hlt]
    rw [hnone, hall, List.nil_append]
  rw [selectAll_after hl, hrest]

/-- What `read_all` answers a reader. -/
theorem readAll_reader (hl : l.Inv) {context : TenantContext} {limit : ℤ} {page : EventPage}
    (hhistory : l.history context.tenantId = received ++ rest)
    (hread : l.readAll context (cursor received) limit = .ok page) :
    1 ≤ limit.toNat ∧ page.events.map (·.event) = rest.take limit.toNat := by
  rcases validatePageArguments_cases (cursor received) limit with hargs | ⟨message, hargs⟩
  · obtain ⟨next, heq⟩ : ∃ next, l.readAll context (cursor received) limit = .ok ⟨_, next⟩ :=
      Ledger.readAll_eq hl.heads hargs
    rw [heq, Except.ok.injEq] at hread
    subst hread
    dsimp only
    simp only [validatePageArguments, bind_eq_ok, raiseIf_eq_ok, not_not] at hargs
    obtain ⟨-, -, hlimit, -⟩ := hargs
    refine ⟨by omega, ?_⟩
    rw [selectAll_eq hl hhistory, List.map_map]
    exact List.map_id _
  · unfold Ledger.readAll at hread
    rw [hargs] at hread
    cases hread

variable {tenants : List String} {clock : Timestamp} {context : TenantContext} {s s' : LedgerSys}
  {received' : List EventEnvelope} {n : ℕ}

theorem Reading.run (h : Reading context s received n s' received')
    (hrun : LedgerRun tenants clock s) : LedgerRun tenants clock s' := by
  induction h with
  | refl => exact hrun
  | step _ hstep ih => exact ih.step hstep
  | page _ _ ih => exact ih

/-- What a reader has received is a first part of the history, and it grows with every
page until it has caught up with what was there. -/
theorem Reading.spec (h : Reading context s received n s' received')
    (hrun : LedgerRun tenants clock s)
    (hreceived : received <+: s.shared.history context.tenantId) :
    received' <+: s'.shared.history context.tenantId ∧
      s.shared.history context.tenantId <+: s'.shared.history context.tenantId ∧
      min (received.length + n) (s.shared.history context.tenantId).length ≤ received'.length := by
  induction h with
  | refl => exact ⟨hreceived, List.prefix_rfl, min_le_left _ _⟩
  | @step n s' s'' received' a hreading hstep ih =>
    obtain ⟨hbegins, hgrown, hlength⟩ := ih
    obtain ⟨new, hnew, -⟩ := history_step (hreading.run hrun) hstep context.tenantId
    have hmore : s'.shared.history context.tenantId <+: s''.shared.history context.tenantId :=
      ⟨new, hnew.symm⟩
    exact ⟨hbegins.trans hmore, hgrown.trans hmore, hlength⟩
  | @page n s' received' limit page hreading hread ih =>
    obtain ⟨⟨rest, hrest⟩, hgrown, hlength⟩ := ih
    obtain ⟨hlimit, hpage⟩ := readAll_reader (hreading.run hrun).good.inv hrest.symm hread
    have hhistory := congrArg List.length hrest
    have hgrownLength := hgrown.length_le
    rw [List.length_append] at hhistory
    rw [hpage]
    refine ⟨?_, hgrown, ?_⟩
    · rw [← hrest]
      exact (List.prefix_append_right_inj _).2 (List.take_prefix _ _)
    · rw [List.length_append, List.length_take]
      omega

/-- The events of one stream among the first events of the history. -/
theorem map_filter_of_prefix (hl : l.Inv) (hbegins : received <+: l.history t) (a : String) :
    ∃ n, (received.filter (·.aggregateId = a)).map (·.aggregateSequence) = List.range' 1 n := by
  obtain ⟨rest, hrest⟩ := hbegins
  have hstream : (l.history t).filter (·.aggregateId = a) =
      l.db.events.filter fun e => e.tenantId = t && e.aggregateId = a := by
    unfold Ledger.history
    rw [List.filter_filter]
    refine List.filter_congr fun e _ => ?_
    rw [Bool.and_comm]
  have hnumbers := hl.heads t a
  rw [← hstream, ← hrest, List.filter_append, List.map_append] at hnumbers
  refine ⟨min ((received.filter (·.aggregateId = a)).map (·.aggregateSequence)).length
    (l.db.version t a), ?_⟩
  rw [← take_range', ← hnumbers, List.take_left]

end

/-- **The global cursor is safe.**  Beside any calls, what becomes visible comes after all
that is visible of the tenant; a reader that continues after the last position it has
received can always read on, has received a first part of the history, in the order of
positions and each stream in the order of its numbers, and has received all that was
committed once it has read as many pages more. -/
theorem commit_safe_cursor (tenants : List String) (clock : Timestamp) (context : TenantContext)
    (s₀ s : LedgerSys) (m : ℕ) (received : List EventEnvelope)
    (hrun : LedgerRun tenants clock s₀) (hreading : Reading context s₀ [] m s received) :
    (∀ a s', LedgerStep s a s' → ∃ new,
      s'.shared.history context.tenantId = s.shared.history context.tenantId ++ new ∧
      ∀ e ∈ s.shared.history context.tenantId, ∀ e' ∈ new, Precedes e e') ∧
    (∀ limit : ℤ, 1 ≤ limit → limit ≤ 1000 →
      ∃ page, s.shared.readAll context (cursor received) limit = .ok page) ∧
    received <+: s.shared.history context.tenantId ∧
    received.Pairwise Precedes ∧
    (∀ aggregateId, ∃ k, (received.filter (·.aggregateId = aggregateId)).map
      (·.aggregateSequence) = List.range' 1 k) ∧
    ∀ n s' received', Reading context s received n s' received' →
      (s.shared.history context.tenantId).length ≤ received.length + n →
      s.shared.history context.tenantId <+: received' := by
  have hreached := hreading.run hrun
  have hinv : s.shared.Inv := hreached.good.inv
  obtain ⟨hbegins, -, -⟩ := hreading.spec hrun List.nil_prefix
  refine ⟨fun a s' hstep => history_step hreached hstep context.tenantId,
    fun limit hone hmax => ?_, hbegins, ?_, map_filter_of_prefix hinv hbegins,
    fun n s' received' hmore hpages => ?_⟩
  · have hargs : validatePageArguments (cursor received) limit = .ok () := by
      simp only [validatePageArguments, bind_eq_ok, raiseIf_eq_ok, not_not]
      exact ⟨(), by omega, hone, hmax⟩
    obtain ⟨next, hread⟩ := Ledger.readAll_eq hinv.heads hargs (l := s.shared)
    exact ⟨_, hread⟩
  · exact (hinv.ordered context.tenantId).pairwise.sublist hbegins.sublist
  · obtain ⟨hlater, hgrown, hlength⟩ := hmore.spec hreached hbegins
    rw [min_eq_right hpages] at hlength
    exact List.prefix_of_prefix_length_le hgrown hlater hlength

theorem commit_safe_cursor_first : ∃ s received, LedgerRun ["acme"] 0 s ∧
    Reading ledgerContext s [] 1 s received ∧ received ≠ [] ∧
    s.shared.history "acme" <+: received := by
  have hdrive : ∃ s, Sys.drive ledgerEngine AppendCall.transaction
      ⟨Ledger.fresh ["acme"] 0, []⟩ (firstDelivery ++ [.commit 0]) = some s ∧
      (s.shared.history "acme").length = 1 := ⟨_, rfl, rfl⟩
  obtain ⟨s, hs, hone⟩ := hdrive
  have hrun : LedgerRun ["acme"] 0 s := Sys.drive_run hs
  have hstart : Reading ledgerContext s [] 0 s [] := .refl
  have hsafe := commit_safe_cursor ["acme"] 0 ledgerContext s s 0 [] hrun hstart
  obtain ⟨page, hread⟩ := hsafe.2.1 1 le_rfl (by decide)
  have hpage := hstart.page hread
  have hall := hsafe.2.2.2.2.2 1 s _ hpage (hone.trans_le (le_refl 1))
  refine ⟨s, _, hrun, hpage, fun hnil => ?_, hall⟩
  rw [hnil] at hall
  have hle := hall.length_le
  rw [show (s.shared.history ledgerContext.tenantId).length = 1 from hone] at hle
  cases hle

end AegisPlatform
