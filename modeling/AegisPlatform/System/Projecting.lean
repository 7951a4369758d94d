import AegisPlatform.Projections.Engine

/-!
# Projections are folds

One checkpoint drives every projection: counters that add, rows that are inserted once,
rows that are deleted and rows of the last writer.  Whatever engines, resets and appends
do to each other, the rows of a tenant are the fold of its events up to the checkpoint.

* `upTo_append_after` — a position cuts a history in two.
* `ViewsFold`, `Ahead` — what holds of the read models, and of the page an engine is
  about to apply.
* `ProjectionStep.inv` — every step keeps both.
* `projections_fold_once` — the fold, over whole runs.
-/

namespace AegisPlatform

open Fallible Transactions

/-! ## Positions cut histories -/

section

variable {l l' : Ledger} {t : String} {position : ℕ} {e : EventEnvelope}

theorem mem_upTo : e ∈ l.upTo t position ↔
    e ∈ l.history t ∧ ∃ p, e.globalPosition = some p ∧ p ≤ position := by
  unfold Ledger.upTo
  cases h : e.globalPosition <;> simp [h]

theorem mem_after : e ∈ l.after t position ↔
    e ∈ l.history t ∧ ∃ p, e.globalPosition = some p ∧ position < p := by
  unfold Ledger.after
  cases h : e.globalPosition <;> simp [h]

theorem filter_append_filter {es : List EventEnvelope} (h : es.Pairwise Precedes)
    (hpositions : ∀ e ∈ es, ∃ p, e.globalPosition = some p) (position : ℕ) :
    es.filter (fun e => e.globalPosition.any (· ≤ position)) ++
      es.filter (fun e => e.globalPosition.any (position < ·)) = es := by
  induction es with
  | nil => rfl
  | cons e rest ih =>
    obtain ⟨hfirst, hrest⟩ := List.pairwise_cons.1 h
    obtain ⟨p, hp⟩ := hpositions e (List.mem_cons_self ..)
    have ih := ih hrest fun e' he' => hpositions e' (List.mem_cons_of_mem _ he')
    by_cases hle : p ≤ position
    · have hnot : ¬ position < p := not_lt.2 hle
      rw [List.filter_cons_of_pos (by simp [hp, hle]), List.filter_cons_of_neg (by simp [hp, hnot]),
        List.cons_append, ih]
    · -- the first event lies after the position, and so do all that follow it
      have hlt : position < p := not_le.1 hle
      have hlater : ∀ e' ∈ rest, ∃ q, e'.globalPosition = some q ∧ position < q := by
        intro e' he'
        obtain ⟨p₀, q, hp₀, hq, hpq⟩ := hfirst e' he'
        rw [hp, Option.some.injEq] at hp₀
        exact ⟨q, hq, by omega⟩
      have hnone : (e :: rest).filter (fun e => e.globalPosition.any (· ≤ position)) = [] := by
        refine List.filter_eq_nil_iff.2 fun e' he' => ?_
        rcases List.mem_cons.1 he' with rfl | he'
        · simp [hp, hlt]
        · obtain ⟨q, hq, hlt'⟩ := hlater e' he'
          simp [hq, hlt']
      have hall : (e :: rest).filter (fun e => e.globalPosition.any (position < ·)) = e :: rest := by
        refine List.filter_eq_self.2 fun e' he' => ?_
        rcases List.mem_cons.1 he' with rfl | he'
        · simp [hp, hlt]
        · obtain ⟨q, hq, hlt'⟩ := hlater e' he'
          simp [hq, hlt']
      rw [hnone, hall, List.nil_append]

/-- **A position cuts the history of a tenant in two.** -/
theorem upTo_append_after (hl : l.Inv) (t : String) (position : ℕ) :
    l.upTo t position ++ l.after t position = l.history t :=
  filter_append_filter (hl.ordered t).pairwise
    (fun _ he => ((hl.ordered t).pos he).imp fun _ h => h.1) position

/-- What comes right after a position joins what came before. -/
theorem upTo_page (hl : l.Inv) {page : List EventEnvelope} (hpage : page <+: l.after t position)
    {last : EventEnvelope} {final : ℕ} (hlast : last ∈ page.getLast?)
    (hfinal : last.globalPosition = some final) :
    l.upTo t final = l.upTo t position ++ page := by
  obtain ⟨rest, hrest⟩ := hpage
  obtain ⟨init, rfl⟩ := List.getLast?_eq_some_iff.1 hlast
  have hcut := upTo_append_after hl t position
  rw [← hrest] at hcut
  have hsorted := (hl.ordered t).pairwise
  rw [← hcut] at hsorted
  obtain ⟨-, hsorted, -⟩ := List.pairwise_append.1 hsorted
  obtain ⟨hpage, -, hlater⟩ := List.pairwise_append.1 hsorted
  have hmem : last ∈ init ++ [last] := List.mem_append_right _ (List.mem_singleton.2 rfl)
  have hlastAfter : last ∈ l.after t position := hrest ▸ List.mem_append_left _ hmem
  obtain ⟨-, q, hq, hlt⟩ := mem_after.1 hlastAfter
  rw [hfinal, Option.some.injEq] at hq
  subst hq
  have hbefore : (l.upTo t position).filter (fun e => e.globalPosition.any (· ≤ final)) =
      l.upTo t position := by
    refine List.filter_eq_self.2 fun e he => ?_
    obtain ⟨-, p, hp, hle⟩ := mem_upTo.1 he
    simp [hp, hle.trans hlt.le]
  have hpageKept : (init ++ [last]).filter (fun e => e.globalPosition.any (· ≤ final)) =
      init ++ [last] := by
    refine List.filter_eq_self.2 fun e he => ?_
    rcases List.mem_append.1 he with he | he
    · obtain ⟨p, q, hp, hq, hpq⟩ :=
        (List.pairwise_append.1 hpage).2.2 e he last (List.mem_singleton.2 rfl)
      rw [hfinal, Option.some.injEq] at hq
      simp [hp, (hq ▸ hpq).le]
    · rw [List.mem_singleton.1 he]
      simp [hfinal]
  have hrestGone : rest.filter (fun e => e.globalPosition.any (· ≤ final)) = [] := by
    refine List.filter_eq_nil_iff.2 fun e he => ?_
    obtain ⟨p, q, hp, hq, hpq⟩ := hlater last hmem e he
    rw [hfinal, Option.some.injEq] at hp
    simp [hq, hp ▸ hpq]
  show (l.history t).filter _ = _
  rw [← hcut, List.filter_append, List.filter_append, hbefore, hpageKept, hrestGone,
    List.append_nil]

end

/-! ## The invariant -/

/-- **The rows of every tenant are the fold of its events up to the checkpoint**, and the
checkpoint is the position of one of its events, or `0`. -/
structure ViewsFold (text : PayloadText) (l : Ledger) (v : Views) : Prop where
  folded : ∀ p t, ∃ table, project text p (l.upTo t (v.checkpoint t p)) = .ok table ∧
    SameRows t (v.tables p) table
  reached : ∀ p t, v.checkpoint t p = 0 ∨
    ∃ e ∈ l.history t, e.globalPosition = some (v.checkpoint t p)

/-- The page an engine is about to apply is what comes right after its cursor. -/
def Ahead (l : Ledger) (c : EngineCall) : Prop :=
  ∀ cursor versions page, c.state = .applying cursor versions page → page.events ≠ [] ∧
    page.events.map (·.event) <+: l.after c.context.tenantId cursor

/-- The history of every tenant has grown at its end. -/
def Grows (l l' : Ledger) : Prop :=
  ∀ t, ∃ new, l'.history t = l.history t ++ new ∧ ∀ e ∈ l.history t, ∀ e' ∈ new, Precedes e e'

section

variable {text : PayloadText} {l l' : Ledger} {v v' : Views} {c : EngineCall} {t : String}

theorem Ahead.of_not_applying (h : ∀ cursor versions page, c.state ≠ .applying cursor versions page) :
    Ahead l c :=
  fun cursor versions page hstate => absurd hstate (h cursor versions page)

theorem Ahead.grows (h : Ahead l c) (hgrows : Grows l l') : Ahead l' c := by
  intro cursor versions page hstate
  obtain ⟨hne, hbegins⟩ := h cursor versions page hstate
  obtain ⟨new, hnew, -⟩ := hgrows c.context.tenantId
  refine ⟨hne, hbegins.trans ?_⟩
  unfold Ledger.after
  rw [hnew, List.filter_append]
  exact List.prefix_append _ _

/-- What is appended lies after every checkpoint. -/
theorem upTo_grows (hgrows : Grows l l') (hl' : l'.Inv) {position : ℕ}
    (hreached : position = 0 ∨ ∃ e ∈ l.history t, e.globalPosition = some position) :
    l'.upTo t position = l.upTo t position := by
  obtain ⟨new, hnew, hprecedes⟩ := hgrows t
  unfold Ledger.upTo
  rw [hnew, List.filter_append]
  have hgone : new.filter (fun e => e.globalPosition.any (· ≤ position)) = [] := by
    refine List.filter_eq_nil_iff.2 fun e he => ?_
    rcases hreached with rfl | ⟨e₀, he₀, hposition⟩
    · obtain ⟨p, hp, hpos⟩ := (hl'.ordered t).pos (hnew ▸ List.mem_append_right _ he)
      simp [hp, hpos.ne']
    · obtain ⟨p, q, hp, hq, hlt⟩ := hprecedes e₀ he₀ e he
      rw [hposition, Option.some.injEq] at hp
      simp [hq, hp ▸ hlt]
  rw [hgone, List.append_nil]

theorem ViewsFold.grows (h : ViewsFold text l v) (hgrows : Grows l l') (hl' : l'.Inv) :
    ViewsFold text l' v where
  folded p t := by
    rw [upTo_grows hgrows hl' (h.reached p t)]
    exact h.folded p t
  reached p t := by
    refine (h.reached p t).imp_right fun ⟨e, he, hposition⟩ => ?_
    obtain ⟨new, hnew, -⟩ := hgrows t
    exact ⟨e, hnew ▸ List.mem_append_left _ he, hposition⟩

/-- The fold is about the rows and the checkpoints only. -/
theorem ViewsFold.congr (h : ViewsFold text l v) (htables : v'.tables = v.tables)
    (hcheckpoint : ∀ t p, v'.checkpoint t p = v.checkpoint t p) : ViewsFold text l v' where
  folded p t := by rw [hcheckpoint, htables]; exact h.folded p t
  reached p t := by rw [hcheckpoint]; exact h.reached p t

theorem upTo_zero (hl : l.Inv) (t : String) : l.upTo t 0 = [] := by
  refine List.filter_eq_nil_iff.2 fun e he => ?_
  obtain ⟨p, hp, hpos⟩ := (hl.ordered t).pos he
  simp [hp, hpos.ne']

/-- An empty view is the fold of nothing. -/
theorem ViewsFold.reset (hl : l.Inv) (h : ViewsFold text l v) (t : String) (p : ProjectionName) :
    ViewsFold text l (v.reset t p) where
  folded p' t' := by
    rw [Views.checkpoint_reset]
    by_cases hk : (t', p') = (t, p)
    · cases hk
      rw [if_pos rfl, upTo_zero hl]
      exact ⟨∅, rfl, fun key => v.lookup_reset t p key⟩
    · rw [if_neg hk]
      obtain ⟨table, hproject, hrows⟩ := h.folded p' t'
      refine ⟨table, hproject, fun key => ?_⟩
      rw [← v.sameRows_reset hk key]
      exact hrows key
  reached p' t' := by
    rw [Views.checkpoint_reset]
    split
    · exact Or.inl rfl
    · exact h.reached p' t'

/-- **A page that is applied where its reader expected it extends the fold.** -/
theorem ViewsFold.apply (hl : l.Inv) (h : ViewsFold text l v) {context : TenantContext}
    {p : ProjectionName} {page : List EventEnvelope} {cursor actual : ℕ} (hne : page ≠ [])
    (hpage : page <+: l.after context.tenantId cursor)
    (happly : v.apply text context p page cursor = .ok (actual, v')) : ViewsFold text l v' := by
  rcases Views.apply_eq_ok hne happly with ⟨htables, hcheckpoint⟩ |
    ⟨last, hlast, table, hfinal, hexpected, htenants, hfold, htables, hcheckpoint⟩
  · exact h.congr htables hcheckpoint
  · refine ⟨fun p' t' => ?_, fun p' t' => ?_⟩
    · rw [hcheckpoint]
      by_cases hk : (t', p') = (context.tenantId, p)
      · cases hk
        obtain ⟨old, hproject, hrows⟩ := h.folded p context.tenantId
        rw [hexpected] at hproject
        obtain ⟨new, hnew, hsame⟩ := hrows.foldlM htenants hfold
        refine ⟨new, ?_, ?_⟩
        · rw [if_pos rfl, upTo_page hl hpage hlast hfinal]
          unfold project at *
          rw [List.foldlM_append, hproject]
          exact hnew
        · rw [htables, Function.update_self]
          exact hsame
      · rw [if_neg hk]
        obtain ⟨old, hproject, hrows⟩ := h.folded p' t'
        refine ⟨old, hproject, ?_⟩
        rw [htables]
        by_cases hp : p' = p
        · subst hp
          have ht : ∀ e ∈ page, e.tenantId ≠ t' := by
            intro e he heq
            exact hk (by rw [← heq, htenants e he])
          rw [Function.update_self]
          exact fun key => (sameRows_foldlM ht hfold key).symm.trans (hrows key)
        · rw [Function.update_of_ne hp]
          exact hrows
    · rw [hcheckpoint]
      split
      · rename_i hk
        cases hk
        have hmem : last ∈ page := List.mem_of_getLast? hlast
        exact Or.inr ⟨last, (mem_after.1 (hpage.subset hmem)).1, hfinal⟩
      · exact h.reached p' t'

/-- The page `read_all` returns is what comes right after the cursor. -/
theorem readAll_prefix (hl : l.Inv) {context : TenantContext} {cursor : ℕ} {limit : ℤ}
    {page : EventPage} (hread : l.readAll context cursor limit = .ok page) :
    page.events.map (·.event) <+: l.after context.tenantId cursor := by
  simp only [Ledger.readAll, bind_eq_ok, pure_eq_ok] at hread
  obtain ⟨-, -, -, -, rfl⟩ := hread
  dsimp only
  rw [selectAll_after hl, List.map_map]
  exact (List.map_id _).symm ▸ List.take_prefix _ _

/-- **What one call of an engine keeps.** -/
theorem EngineCall.step_inv (hl : l.Inv) (hv : ViewsFold text l v) (hc : Ahead l c) :
    ViewsFold text l (c.step text l v).1 ∧ Ahead l (c.step text l v).2 := by
  obtain ⟨context, p, pageSize, valid, state⟩ := c
  cases state with
  | resetting => exact ⟨hv.reset hl _ _, .of_not_applying fun _ _ _ h => (by cases h)⟩
  | loading => exact ⟨hv, .of_not_applying fun _ _ _ h => (by cases h)⟩
  | reading cursor versions =>
    refine ⟨hv, fun cursor' versions' page hstate => ?_⟩
    simp only [EngineCall.step] at hstate
    unfold EngineCall.afterRead at hstate
    split at hstate
    · cases hstate
    · rename_i page₀ hread
      split at hstate
      · cases hstate
      · rename_i hne
        split at hstate
        · cases hstate
        · cases hstate
          exact ⟨by simpa using hne, readAll_prefix hl hread⟩
  | applying cursor versions page =>
    obtain ⟨hne, hpage⟩ := hc cursor versions page rfl
    simp only [EngineCall.step]
    split
    · exact ⟨hv, .of_not_applying fun _ _ _ h => (by cases h)⟩
    · rename_i cursor' v' happly
      refine ⟨hv.apply hl (by simpa using hne) hpage happly, .of_not_applying fun _ _ _ h => ?_⟩
      dsimp only at h
      split at h <;> cases h
  | returned checkpoint => exact ⟨hv, hc⟩
  | raised e => exact ⟨hv, hc⟩

end

/-! ## Whole runs -/

/-- What holds of every state that engines and appends reach. -/
structure ProjectionSys.Inv (text : PayloadText) (tenants : List String) (clock : Timestamp)
    (s : ProjectionSys) : Prop where
  ledger : LedgerRun tenants clock s.ledger
  views : ViewsFold text s.ledger.shared s.views
  engines : ∀ c ∈ s.engines, Ahead s.ledger.shared c

section

variable {text : PayloadText} {tenants : List String} {clock : Timestamp} {s s' : ProjectionSys}

/-- **Every step keeps the fold.** -/
theorem ProjectionStep.inv (h : s.Inv text tenants clock) (hstep : ProjectionStep text s s') :
    s'.Inv text tenants clock := by
  have hl : s.ledger.shared.Inv := h.ledger.good.inv
  cases hstep with
  | @ledger a l' hledger =>
    have hgrows : Grows s.ledger.shared l'.shared := history_step h.ledger hledger
    have hrun := h.ledger.step hledger
    exact ⟨hrun, h.views.grows hgrows hrun.good.inv, fun c hc => (h.engines c hc).grows hgrows⟩
  | reset context p => exact ⟨h.ledger, h.views.reset hl _ _, h.engines⟩
  | call c hstart =>
    refine ⟨h.ledger, h.views, fun c' hc' => ?_⟩
    rcases List.mem_append.1 hc' with hc' | hc'
    · exact h.engines c' hc'
    · rw [List.mem_singleton.1 hc']
      refine .of_not_applying fun cursor versions page hstate => ?_
      rw [hstate] at hstart
      cases hstart
  | @engine i c hi =>
    obtain ⟨hviews, hahead⟩ :=
      EngineCall.step_inv hl h.views (h.engines c (List.mem_of_getElem? hi))
    refine ⟨h.ledger, hviews, fun c' hc' => ?_⟩
    rcases List.mem_or_eq_of_mem_set hc' with hc' | rfl
    · exact h.engines c' hc'
    · exact hahead
  | @fail i c e hi hrunning =>
    refine ⟨h.ledger, h.views, fun c' hc' => ?_⟩
    rcases List.mem_or_eq_of_mem_set hc' with hc' | rfl
    · exact h.engines c' hc'
    · exact .of_not_applying fun _ _ _ hstate => (by cases hstate)

theorem ProjectionRun.inv (h : ProjectionRun text tenants clock s) : s.Inv text tenants clock := by
  induction h with
  | start =>
    refine ⟨.refl _, ⟨fun p t => ⟨∅, rfl, .refl t _⟩, fun p t => Or.inl rfl⟩, fun c hc => ?_⟩
    cases hc
  | step _ hstep ih => exact hstep.inv ih

end

/-- The checkpoint of a projection for a tenant. -/
def ProjectionSys.checkpoint (s : ProjectionSys) (tenantId : String) (p : ProjectionName) : ℕ :=
  s.views.checkpoint tenantId p

/-- The events of a tenant that a projection has passed: those up to its checkpoint. -/
def ProjectionSys.passed (s : ProjectionSys) (tenantId : String) (p : ProjectionName) :
    List EventEnvelope := s.ledger.shared.upTo tenantId (s.checkpoint tenantId p)

/-- **Projections are an exactly-once fold of the ledger.**  Beside any appends, engines,
resets and failures, the rows of a tenant are what its events up to the checkpoint give,
applied in the order of their positions, each once; nothing at or before the checkpoint is
left out, whatever is appended later; and two states that have passed the same events, one
of them rebuilt and the other caught up, have the same rows. -/
theorem projections_fold_once (text : PayloadText) (tenants : List String) (clock : Timestamp)
    (s : ProjectionSys) (p : ProjectionName) (tenantId : String)
    (hrun : ProjectionRun text tenants clock s) :
    (∃ table, project text p (s.passed tenantId p) = .ok table ∧
      SameRows tenantId (s.views.tables p) table) ∧
    (s.passed tenantId p).Pairwise Precedes ∧
    s.passed tenantId p <+: s.ledger.shared.history tenantId ∧
    (∀ a l', LedgerStep s.ledger a l' →
      l'.shared.upTo tenantId (s.checkpoint tenantId p) = s.passed tenantId p) ∧
    ∀ tenants' clock' s', ProjectionRun text tenants' clock' s' →
      s'.passed tenantId p = s.passed tenantId p →
      SameRows tenantId (s'.views.tables p) (s.views.tables p) := by
  have hinv := hrun.inv
  have hl : s.ledger.shared.Inv := hinv.ledger.good.inv
  obtain ⟨table, hproject, hrows⟩ := hinv.views.folded p tenantId
  refine ⟨⟨table, hproject, hrows⟩, (hl.ordered tenantId).pairwise.sublist List.filter_sublist,
    ?_, fun a l' hstep => ?_, fun tenants' clock' s' hrun' hsame => ?_⟩
  · rw [← upTo_append_after hl tenantId (s.checkpoint tenantId p)]
    exact List.prefix_append _ _
  · exact upTo_grows (history_step hinv.ledger hstep) (hinv.ledger.step hstep).good.inv
      (hinv.views.reached p tenantId)
  · obtain ⟨table', hproject', hrows'⟩ := hrun'.inv.views.folded p tenantId
    unfold ProjectionSys.passed ProjectionSys.checkpoint at hsame
    rw [hsame, hproject, Except.ok.injEq] at hproject'
    subst hproject'
    exact fun key => (hrows' key).trans (hrows key).symm

/-! A tenant is registered, and its listing is rebuilt. -/

def registration : EventEnvelope where
  eventId := UUID.ofNat 1
  tenantId := "acme"
  aggregateId := "tenant"
  eventType := .tenantRegistered
  occurredAt := 0
  payload := [("display_name", .str "Acme")]

def payloadText : PayloadText := ⟨fun _ => none, fun _ => none⟩

/-- A rebuild of the listing, as far as it has come. -/
def listing (state : EngineState) : EngineCall :=
  ⟨ledgerContext, .tenantListing, 2, by decide, state⟩

theorem registered : ∃ l : LedgerSys, LedgerRun ["acme"] 0 l ∧
    l.shared.history "acme" = [registration.stored 1 1 0] := by
  have hdrive : ∃ l, Sys.drive ledgerEngine AppendCall.transaction
      ⟨Ledger.fresh ["acme"] 0, []⟩ (.call (.append ledgerContext [registration] 0 []) ::
        List.replicate 6 (.exec 0) ++ [.commit 0]) = some l ∧
      l.shared.history "acme" = [registration.stored 1 1 0] := ⟨_, rfl, rfl⟩
  obtain ⟨l, hl, hhistory⟩ := hdrive
  exact ⟨l, Sys.drive_run hl, hhistory⟩

theorem readAll_registered {l : Ledger} (hl : l.Inv)
    (hhistory : l.history "acme" = [registration.stored 1 1 0]) :
    l.readAll ledgerContext 0 2 = .ok ⟨[⟨registration.stored 1 1 0, none⟩], none⟩ := by
  have hmem : registration.stored 1 1 0 ∈ l.db.events :=
    (List.mem_filter.1 (show _ ∈ l.history "acme" from hhistory ▸ List.mem_singleton.2 rfl)).1
  have hlag : l.lag (registration.stored 1 1 0) = none := (Ledger.lag_eq hl.heads hmem).2
  have hselect : l.selectAll ledgerContext.tenantId 0 2 = [⟨registration.stored 1 1 0, none⟩] := by
    have hafter : l.after "acme" 0 = [registration.stored 1 1 0] := by
      unfold Ledger.after
      rw [hhistory]
      rfl
    have hpage := selectAll_after hl "acme" 0 2
    rw [hafter] at hpage
    refine hpage.trans ?_
    simp only [Ledger.replayed, hlag, Int.reduceToNat, List.take_succ_cons, List.take_nil,
      List.map_cons, List.map_nil]
  unfold Ledger.readAll
  rw [hselect]
  rfl

theorem ProjectionRun.of_ledger {text : PayloadText} {tenants : List String} {clock : Timestamp}
    {l : LedgerSys} (h : LedgerRun tenants clock l) : ProjectionRun text tenants clock ⟨l, {}, []⟩ := by
  unfold LedgerRun LedgerSteps at h
  induction h with
  | refl => exact .start
  | tail _ hstep ih => exact ih.step (.ledger hstep)

/-- A step of the only engine. -/
theorem ProjectionRun.engine {text : PayloadText} {tenants : List String} {clock : Timestamp}
    {l : LedgerSys} {v v' : Views} {c c' : EngineCall}
    (h : ProjectionRun text tenants clock ⟨l, v, [c]⟩) (hstep : c.step text l.shared v = (v', c')) :
    ProjectionRun text tenants clock ⟨l, v', [c']⟩ := by
  have hnext := h.step (.engine (i := 0) rfl)
  dsimp only [List.set] at hnext
  rw [hstep] at hnext
  exact hnext

/-- The page a rebuild reads, and what comes of it. -/
theorem listing_reads {l : Ledger} (hl : l.Inv)
    (hhistory : l.history "acme" = [registration.stored 1 1 0]) (v : Views) :
    (listing (.reading 0 [])).step payloadText l v = (v, listing (.applying 0 [("tenant", 1)]
      ⟨[⟨registration.stored 1 1 0, none⟩], none⟩)) := by
  simp only [EngineCall.step, listing]
  rw [Nat.cast_zero, readAll_registered hl hhistory]
  simp [EngineCall.afterRead, validatePage, registration, EventEnvelope.stored, checkVersions,
    raiseIf, bind, Except.bind, Assoc.set]

theorem listing_applies {l : Ledger} : ∃ v,
    (listing (.applying 0 [("tenant", 1)] ⟨[⟨registration.stored 1 1 0, none⟩], none⟩)).step
      payloadText l (Views.reset {} "acme" .tenantListing) = (v, listing (.returned 1)) ∧
    v.checkpoint "acme" .tenantListing = 1 ∧
    (v.tables .tenantListing).lookup ("acme", ()) = some ⟨"Acme", true, 1⟩ := ⟨_, rfl, rfl, rfl⟩

theorem projections_fold_once_listing : ∃ s, ProjectionRun payloadText ["acme"] 0 s ∧
    s.engines = [listing (.returned 1)] ∧
    (s.views.tables .tenantListing).lookup ("acme", ()) = some ⟨"Acme", true, 1⟩ ∧
    ∃ table, project payloadText .tenantListing [registration.stored 1 1 0] = .ok table ∧
      SameRows "acme" (s.views.tables .tenantListing) table := by
  obtain ⟨l, hl, hhistory⟩ := registered
  have hread := listing_reads hl.good.inv hhistory (Views.reset {} "acme" .tenantListing)
  obtain ⟨v, hv, hcheckpoint, hrow⟩ := listing_applies (l := l.shared)
  have hcall : ProjectionRun payloadText ["acme"] 0 ⟨l, {}, [listing .resetting]⟩ :=
    (ProjectionRun.of_ledger hl).step (.call _ rfl)
  have hloading : ProjectionRun payloadText ["acme"] 0
      ⟨l, Views.reset {} "acme" .tenantListing, [listing (.reading 0 [])]⟩ :=
    (hcall.engine rfl).engine rfl
  have hrun := (hloading.engine hread).engine hv
  have hfold := (projections_fold_once payloadText ["acme"] 0 _ .tenantListing "acme" hrun).1
  have hpassed : ProjectionSys.passed ⟨l, v, [listing (.returned 1)]⟩ "acme" .tenantListing =
      [registration.stored 1 1 0] := by
    unfold ProjectionSys.passed ProjectionSys.checkpoint Ledger.upTo
    rw [hcheckpoint, hhistory]
    rfl
  rw [hpassed] at hfold
  exact ⟨_, hrun, rfl, hrow, hfold⟩
end AegisPlatform
