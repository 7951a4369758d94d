import AegisPlatform.Projections.Checkpoints

/-!
# False alarms of replay

A `catch_up` remembers the last number it has seen of every aggregate, and raises
`ReplayCorruptionError` when the next one does not follow.  Its cursor may move past events
that another engine has applied, and of those it remembers nothing.

* `CatchUpSys`, `CatchUpStep`, `CatchUpRun` — calls of `catch_up` on one projection beside
  appends and resets.
* `Agrees` — what a call remembers is where its cursor is.
* `no_false_alarm` — no call raises, provided none jumps over events of an aggregate it
  remembers.
* `step_stale` — and one that does raises at the next event of that aggregate.
-/

namespace AegisPlatform

open Fallible Transactions

/-- A call of `catch_up`. -/
structure CatchUpCall where
  pageSize : ℤ
  /-- The check of the engine's constructor. -/
  valid : 1 ≤ pageSize ∧ pageSize ≤ 1000
  state : EngineState

/-- The event store with its calls, a tenant's projection, and the calls of its engines. -/
structure CatchUpSys (model : ReadModel) where
  ledger : LedgerSys
  view : ProjectionView model.Rows
  engines : List CatchUpCall

section

variable (model : ReadModel) (context : TenantContext)

/-- One step: of the event store, a reset, the start of a `catch_up`, or the next call of an
engine, which may also fail without effect.  The engine's own steps meet a condition on the
state before. -/
inductive CatchUpStep (P : CatchUpSys model → EngineState → Prop) :
    CatchUpSys model → CatchUpSys model → Prop
  | ledger {s : CatchUpSys model} {a : Action AppendCall} {l : LedgerSys} :
      LedgerStep s.ledger a l → CatchUpStep P s { s with ledger := l }
  | reset {s : CatchUpSys model} (rows : model.Rows) :
      CatchUpStep P s { s with view := ⟨rows, none⟩ }
  | call {s : CatchUpSys model} (c : CatchUpCall) : c.state = .loading →
      CatchUpStep P s { s with engines := s.engines ++ [c] }
  | engine {s : CatchUpSys model} {i : ℕ} {c : CatchUpCall} : s.engines[i]? = some c →
      P s c.state →
      CatchUpStep P s { s with
        view := (model.step context c.pageSize s.ledger.shared s.view c.state).1
        engines := s.engines.set i { c with
          state := (model.step context c.pageSize s.ledger.shared s.view c.state).2 } }
  | fail {s : CatchUpSys model} {i : ℕ} {c : CatchUpCall} (e : Raised) : s.engines[i]? = some c →
      (∀ message, e ≠ .replayCorruptionError message) →
      CatchUpStep P s { s with engines := s.engines.set i { c with state := .raised e } }

/-- The states that engines and appends reach from an empty database. -/
inductive CatchUpRun (P : CatchUpSys model → EngineState → Prop) (tenants : List String)
    (clock : Timestamp) : CatchUpSys model → Prop
  | start (rows : model.Rows) :
      CatchUpRun P tenants clock ⟨⟨Ledger.fresh tenants clock, []⟩, ⟨rows, none⟩, []⟩
  | step {s s' : CatchUpSys model} : CatchUpRun P tenants clock s →
      CatchUpStep model context P s s' → CatchUpRun P tenants clock s'

end

/-- The position of a page's last event. -/
def EventPage.lastPosition (page : EventPage) : ℕ :=
  (page.events.getLast?.bind (·.event.globalPosition)).getD 0

/-- An `apply` is *calm* unless its page is not the last one and the checkpoint it finds lies
beyond the page, past an event of an aggregate that the call remembers. -/
def Calm {model : ReadModel} (context : TenantContext) (s : CatchUpSys model) :
    EngineState → Prop
  | .applying _ versions page => page.nextCursor ≠ none →
      ∀ e ∈ s.ledger.shared.history context.tenantId, ∀ p, e.globalPosition = some p →
        page.lastPosition < p → p ≤ s.view.position → versions.lookup e.aggregateId = none
  | _ => True

/-! ## What a call remembers -/

/-- What is remembered of an aggregate is the number of its events among those passed. -/
def Agrees (versions : Assoc String ℕ) (passed : List EventEnvelope) : Prop :=
  ∀ a v, versions.lookup a = some v → v = (passed.filter (·.aggregateId = a)).length

section

variable {l l' : Ledger} {t : String} {passed rest : List EventEnvelope} {e : EventEnvelope}
  {versions : Assoc String ℕ} {cursor : ℕ}

/-- The number of an event is one more than the events of its aggregate before it. -/
theorem aggregateSequence_of_prefix (hl : l.Inv) (h : passed ++ [e] <+: l.history t) :
    e.aggregateSequence = (passed.filter (·.aggregateId = e.aggregateId)).length + 1 := by
  obtain ⟨n, hn⟩ := map_filter_of_prefix hl h e.aggregateId
  rw [List.filter_append, List.filter_cons_of_pos (by simp), List.filter_nil, List.map_append,
    List.map_singleton] at hn
  have hlength := congrArg List.length hn
  rw [List.length_append, List.length_map, List.length_singleton, List.length_range'] at hlength
  rw [← hlength, List.range'_concat] at hn
  obtain ⟨-, hlast⟩ := List.append_inj' hn rfl
  simp only [List.cons.injEq, and_true, one_mul] at hlast
  omega

/-- The positions of what follows a cursor. -/
theorem positions_of_page (hl : l.Inv) {page : List EventEnvelope}
    (hpage : page <+: l.after t cursor) : ∃ positions : List ℕ,
      page.map (·.globalPosition) = positions.map some ∧ positions.Pairwise (· < ·) ∧
      ∀ p ∈ positions, cursor < p := by
  have hsorted : page.Pairwise Precedes :=
    (hl.ordered t).pairwise.sublist (hpage.sublist.trans List.filter_sublist)
  have hbeyond : ∀ e ∈ page, ∃ p, e.globalPosition = some p ∧ cursor < p :=
    fun e he => (mem_after.1 (hpage.subset he)).2
  clear hpage
  induction page with
  | nil => exact ⟨[], rfl, .nil, fun p hp => by cases hp⟩
  | cons e rest ih =>
    obtain ⟨hfirst, hrest⟩ := List.pairwise_cons.1 hsorted
    obtain ⟨p, hp, hlt⟩ := hbeyond e (List.mem_cons_self ..)
    obtain ⟨positions, hpositions, hpairwise, hall⟩ :=
      ih hrest fun e' he' => hbeyond e' (List.mem_cons_of_mem _ he')
    refine ⟨p :: positions, by rw [List.map_cons, List.map_cons, hp, hpositions],
      List.pairwise_cons.2 ⟨fun q hq => ?_, hpairwise⟩, fun q hq => ?_⟩
    · have hq' : some q ∈ rest.map (·.globalPosition) := hpositions ▸ List.mem_map_of_mem hq
      obtain ⟨e', he', heq⟩ := List.mem_map.1 hq'
      obtain ⟨p₀, q₀, hp₀, hq₀, hlt₀⟩ := hfirst e' he'
      rw [hp, Option.some.injEq] at hp₀
      rw [heq, Option.some.injEq] at hq₀
      omega
    · rcases List.mem_cons.1 hq with rfl | hq
      · exact hlt
      · exact hall q hq

/-- **The check of the numbers passes what follows**, when what is remembered agrees with what
came before. -/
theorem checkVersions_eq (hl : l.Inv) {es : List EventEnvelope} (h : passed ++ es <+: l.history t)
    (hagrees : Agrees versions passed) :
    ∃ versions', checkVersions versions (es.map l.replayed) = .ok versions' ∧
      Agrees versions' (passed ++ es) := by
  induction es generalizing passed versions with
  | nil => exact ⟨versions, rfl, by rwa [List.append_nil]⟩
  | cons e rest ih =>
    have hcons : passed ++ e :: rest = (passed ++ [e]) ++ rest := by
      rw [List.append_assoc, List.singleton_append]
    rw [hcons] at h ⊢
    have hnumber : e.aggregateSequence =
        (passed.filter (·.aggregateId = e.aggregateId)).length + 1 :=
      aggregateSequence_of_prefix hl ((List.prefix_append _ _).trans h)
    have hmem : e ∈ l.db.events := by
      have : e ∈ l.history t := h.subset (by simp)
      exact (List.mem_filter.1 this).1
    obtain ⟨hpos, hlag⟩ := Ledger.lag_eq hl.heads hmem
    have hagrees' : Agrees (versions.set e.aggregateId e.aggregateSequence) (passed ++ [e]) := by
      intro a v hv
      rw [Assoc.lookup_set] at hv
      rw [List.filter_append, List.length_append]
      by_cases ha : a = e.aggregateId
      · subst ha
        rw [if_pos rfl, Option.some.injEq] at hv
        simp [← hv, hnumber]
      · rw [if_neg ha] at hv
        rw [hagrees a v hv, List.filter_cons_of_neg (by simpa using Ne.symm ha)]
        simp
    obtain ⟨versions', hcheck, hfinal⟩ := ih h hagrees'
    refine ⟨versions', ?_, hfinal⟩
    rw [List.map_cons, checkVersions]
    refine bind_eq_ok.2 ⟨(), raiseIf_eq_ok.2 ?_, hcheck⟩
    -- the number before it is remembered, or it is the one the ledger gives
    dsimp only [Ledger.replayed]
    cases hlookup : versions.lookup e.aggregateId with
    | some version =>
      have hversion := hagrees e.aggregateId version hlookup
      simp [hnumber, hversion]
    | none =>
      rw [hlag]
      by_cases hone : e.aggregateSequence = 1
      · simp [hone]
      · have hnext : e.aggregateSequence = e.aggregateSequence - 1 + 1 := by omega
        rw [if_neg hone, Option.any_some]
        exact fun hne => of_decide_eq_true hne hnext

/-- Of the checks on a page that comes right after the cursor, only that of the numbers is
left: the positions are in order and lie beyond the cursor. -/
theorem validatePage_after (hl : l.Inv) {page : List EventEnvelope}
    (hpage : page <+: l.after t cursor) :
    validatePage (page.map l.replayed) cursor versions =
      checkVersions versions (page.map l.replayed) := by
  obtain ⟨positions, hpositions, hsorted, hbeyond⟩ := positions_of_page hl hpage
  have hmap : (page.map l.replayed).map (·.event.globalPosition) = positions.map some := by
    rw [List.map_map, ← hpositions]
    rfl
  have hnumeric : (positions.map some).filterMap id = positions := by simp [List.filterMap_map]
  have hnone : ¬ ((positions.map some).any (·.isNone)) = true := by simp
  have horder : ¬ positions ≠ positions.dedup.mergeSort (· ≤ ·) := by
    rw [hsorted.nodup.dedup, List.mergeSort_of_pairwise (hsorted.imp fun h => by simpa using h.le)]
    exact fun h => h rfl
  have hhead : ¬ (positions.head?.any (· ≤ cursor)) = true := by
    cases positions with
    | nil => simp
    | cons p rest => simpa using hbeyond p (List.mem_cons_self ..)
  unfold validatePage
  simp only [hmap, hnumeric, raiseIf_bind, if_neg hnone, if_neg horder, if_neg hhead]

/-- **A page that comes right after the cursor is accepted**, when what is remembered agrees
with what lies before the cursor. -/
theorem checkVersions_after (hl : l.Inv) (hagrees : Agrees versions (l.upTo t cursor))
    {page : List EventEnvelope} (hpage : page <+: l.after t cursor) :
    ∃ versions', checkVersions versions (page.map l.replayed) = .ok versions' ∧
      Agrees versions' (l.upTo t cursor ++ page) := by
  have hbegins : l.upTo t cursor ++ page <+: l.history t := by
    rw [← upTo_append_after hl t cursor]
    exact (List.prefix_append_right_inj _).2 hpage
  exact checkVersions_eq hl hbegins hagrees

/-- What is remembered stays right when the cursor jumps, if it jumps over no event of an
aggregate that is remembered. -/
theorem Agrees.jump {final actual : ℕ} (h : Agrees versions (l.upTo t final))
    (hle : final ≤ actual)
    (hskipped : ∀ e ∈ l.history t, ∀ p, e.globalPosition = some p → final < p → p ≤ actual →
      versions.lookup e.aggregateId = none) : Agrees versions (l.upTo t actual) := by
  intro a v hv
  rw [h a v hv]
  unfold Ledger.upTo
  rw [List.filter_filter, List.filter_filter]
  refine congrArg List.length (List.filter_congr fun e he => ?_)
  by_cases ha : e.aggregateId = a
  · subst ha
    cases hposition : e.globalPosition with
    | none => rfl
    | some p =>
      have hiff : p ≤ final ↔ p ≤ actual := by
        refine ⟨fun hp => hp.trans hle, fun hp => not_lt.1 fun hlt => ?_⟩
        rw [hskipped e he p hposition hlt hp] at hv
        cases hv
      simp [hiff]
  · simp [ha]

end

/-! ## The invariant -/

/-- A position that has been reached: that of an event, or `0`. -/
def Reached (l : Ledger) (t : String) (position : ℕ) : Prop :=
  position = 0 ∨ ∃ e ∈ l.history t, e.globalPosition = some position

/-- Where a call is after it has read rows that come right after its cursor. -/
def receive (cursor : ℕ) (versions : Assoc String ℕ) (pageSize : ℤ) (rows : List ReplayedEvent) :
    EngineState :=
  if rows.isEmpty then .returned cursor
  else match checkVersions versions rows with
    | .error e => .raised e
    | .ok versions => .applying cursor versions {
        events := rows
        nextCursor :=
          if rows.length = pageSize then rows.getLast?.bind (·.event.globalPosition) else none }

/-- What holds of a call of `catch_up`, by its place. -/
def EngineSound (l : Ledger) (t : String) : EngineState → Prop
  | .reading cursor versions => Reached l t cursor ∧ Agrees versions (l.upTo t cursor)
  | .applying _ versions page =>
    (∀ row ∈ page.events, ∃ p, row.event.globalPosition = some p) ∧
      page.events.getLast?.bind (·.event.globalPosition) = some page.lastPosition ∧
      Reached l t page.lastPosition ∧ Agrees versions (l.upTo t page.lastPosition)
  | .raised e => ∀ message, e ≠ .replayCorruptionError message
  | _ => True

section

variable {model : ReadModel} {context : TenantContext} {l l' : Ledger} {t : String}
  {v : ProjectionView model.Rows} {state : EngineState} {position : ℕ}

theorem Reached.grows (h : Reached l t position) (hgrows : Grows l l') :
    Reached l' t position := by
  refine h.imp_right fun ⟨e, he, hposition⟩ => ?_
  obtain ⟨new, hnew, -⟩ := hgrows t
  exact ⟨e, hnew ▸ List.mem_append_left _ he, hposition⟩

theorem EngineSound.grows (h : EngineSound l t state) (hgrows : Grows l l') (hl' : l'.Inv) :
    EngineSound l' t state := by
  cases state with
  | reading cursor versions =>
    obtain ⟨hreached, hagrees⟩ := h
    exact ⟨hreached.grows hgrows, by rwa [upTo_grows hgrows hl' hreached]⟩
  | applying cursor versions page =>
    obtain ⟨hpositions, hlast, hreached, hagrees⟩ := h
    exact ⟨hpositions, hlast, hreached.grows hgrows, by rwa [upTo_grows hgrows hl' hreached]⟩
  | raised e => exact h
  | resetting => trivial
  | loading => trivial
  | returned checkpoint => trivial

/-- The next call of an engine before `read_all`. -/
theorem ReadModel.step_reading (hl : l.Inv) {pageSize : ℤ}
    (hvalid : 1 ≤ pageSize ∧ pageSize ≤ 1000) (cursor : ℕ) (versions : Assoc String ℕ) :
    model.step context pageSize l v (.reading cursor versions) = (v, receive cursor versions pageSize
      (((l.after context.tenantId cursor).take pageSize.toNat).map l.replayed)) := by
  have hargs : validatePageArguments cursor pageSize = .ok () := by
    simp only [validatePageArguments, bind_eq_ok, raiseIf_eq_ok, not_not]
    exact ⟨(), by omega, hvalid⟩
  have hcheck := Ledger.checkPage_selectAll hl.heads context.tenantId cursor pageSize
  have hprefix := List.take_prefix pageSize.toNat (l.after context.tenantId cursor)
  simp only [ReadModel.step, Ledger.readAll, hargs, hcheck, EngineCall.afterRead, receive]
  rw [selectAll_after hl] at *
  show (v, ite _ _ (match validatePage _ _ _ with | .error e => _ | .ok versions => _)) = _
  rw [validatePage_after hl hprefix]

/-- After a page has been read. -/
theorem EngineSound.receive (hl : l.Inv) {cursor : ℕ} {versions : Assoc String ℕ}
    (h : EngineSound l t (.reading cursor versions)) (pageSize : ℤ) {page : List EventEnvelope}
    (hpage : page <+: l.after t cursor) :
    EngineSound l t (receive cursor versions pageSize (page.map l.replayed)) := by
  obtain ⟨-, hagrees⟩ := h
  obtain ⟨versions', hcheck, hfinal⟩ := checkVersions_after hl hagrees hpage
  unfold AegisPlatform.receive
  rw [hcheck]
  rcases List.eq_nil_or_concat page with rfl | ⟨init, last, rfl⟩
  · trivial
  · rw [List.concat_eq_append] at *
    have hmem : last ∈ l.after t cursor := hpage.subset (by simp)
    obtain ⟨hhistory, p, hp, -⟩ := mem_after.1 hmem
    rw [if_neg (by simp)]
    refine ⟨fun row hrow => ?_, ?_⟩
    · obtain ⟨e, he, rfl⟩ := List.mem_map.1 hrow
      obtain ⟨-, q, hq, -⟩ := mem_after.1 (hpage.subset he)
      exact ⟨q, hq⟩
    · have hlast : ((init ++ [last]).map l.replayed).getLast?.bind (·.event.globalPosition) =
          some p := by simp [Ledger.replayed, hp]
      unfold EventPage.lastPosition
      dsimp only
      rw [hlast, Option.getD_some]
      exact ⟨rfl, Or.inr ⟨last, hhistory, hp⟩, by rwa [upTo_page hl hpage (by simp) hp]⟩

/-- **What one call of an engine keeps.** -/
theorem ReadModel.step_sound (hl : l.Inv) {pageSize : ℤ}
    (hvalid : 1 ≤ pageSize ∧ pageSize ≤ 1000)
    (hview : Reached l context.tenantId v.position) (h : EngineSound l context.tenantId state)
    (hcalm : ∀ cursor versions page, state = .applying cursor versions page →
      page.nextCursor ≠ none → ∀ e ∈ l.history context.tenantId, ∀ p,
        e.globalPosition = some p → page.lastPosition < p → p ≤ v.position →
        versions.lookup e.aggregateId = none) :
    Reached l context.tenantId (model.step context pageSize l v state).1.position ∧
      EngineSound l context.tenantId (model.step context pageSize l v state).2 := by
  cases state with
  | loading => exact ⟨hview, hview, fun a n hn => by cases hn⟩
  | reading cursor versions =>
    rw [ReadModel.step_reading hl hvalid]
    exact ⟨hview, h.receive hl pageSize (List.take_prefix _ _)⟩
  | applying cursor versions page =>
    obtain ⟨hpositions, hlast, hreached, hagrees⟩ := h
    have hevents : ∀ e ∈ page.events.map (·.event), ∃ p, e.globalPosition = some p := by
      intro e he
      obtain ⟨row, hrow, rfl⟩ := List.mem_map.1 he
      exact hpositions row hrow
    have hne : page.events.map (·.event) ≠ [] := by
      intro hnil
      rw [List.map_eq_nil_iff] at hnil
      rw [hnil] at hlast
      cases hlast
    have hfinal : (page.events.map (·.event)).getLast?.bind (·.globalPosition) =
        some page.lastPosition := by
      rw [List.getLast?_map, Option.bind_map]
      exact hlast
    unfold ReadModel.step
    dsimp only
    split
    · rename_i e happly
      exact ⟨hview, fun message he => ReadModel.apply_ne_corrupt hevents message (he ▸ happly)⟩
    · rename_i actual v' happly
      rcases ReadModel.apply_eq_ok hne hfinal happly with ⟨hbeyond, rfl, hkept⟩ | ⟨rfl, hmoved⟩
      · refine ⟨by rwa [hkept], ?_⟩
        split
        · trivial
        · rename_i hnext
          refine ⟨hview, hagrees.jump hbeyond ?_⟩
          exact hcalm cursor versions page rfl (by simpa using hnext)
      · refine ⟨by rwa [hmoved], ?_⟩
        split
        · trivial
        · exact ⟨hreached, hagrees⟩
  | resetting => exact ⟨hview, h⟩
  | returned checkpoint => exact ⟨hview, h⟩
  | raised e => exact ⟨hview, h⟩

end

/-- What holds of every state that calm engines and appends reach. -/
structure CatchUpSys.Inv {model : ReadModel} (context : TenantContext) (tenants : List String)
    (clock : Timestamp) (s : CatchUpSys model) : Prop where
  ledger : LedgerRun tenants clock s.ledger
  view : Reached s.ledger.shared context.tenantId s.view.position
  engines : ∀ c ∈ s.engines, EngineSound s.ledger.shared context.tenantId c.state

section

variable {model : ReadModel} {context : TenantContext} {tenants : List String}
  {clock : Timestamp} {s s' : CatchUpSys model}

/-- **Every step keeps the invariant**, when what an engine applies is calm. -/
theorem CatchUpStep.inv (h : s.Inv context tenants clock)
    (hstep : CatchUpStep model context (Calm context) s s') : s'.Inv context tenants clock := by
  have hl : s.ledger.shared.Inv := h.ledger.good.inv
  cases hstep with
  | @ledger a l' hledger =>
    have hgrows : Grows s.ledger.shared l'.shared := history_step h.ledger hledger
    have hrun := h.ledger.step hledger
    exact ⟨hrun, h.view.grows hgrows, fun c hc => (h.engines c hc).grows hgrows hrun.good.inv⟩
  | reset rows => exact ⟨h.ledger, Or.inl rfl, h.engines⟩
  | call c hstart =>
    refine ⟨h.ledger, h.view, fun c' hc' => ?_⟩
    rcases List.mem_append.1 hc' with hc' | hc'
    · exact h.engines c' hc'
    · rw [List.mem_singleton.1 hc', hstart]
      trivial
  | @engine i c hi hcalm =>
    have hsound := h.engines c (List.mem_of_getElem? hi)
    obtain ⟨hview, hnext⟩ := ReadModel.step_sound hl c.valid h.view hsound
      fun cursor versions page hstate => by rw [hstate] at hcalm; exact hcalm
    refine ⟨h.ledger, hview, fun c' hc' => ?_⟩
    rcases List.mem_or_eq_of_mem_set hc' with hc' | rfl
    · exact h.engines c' hc'
    · exact hnext
  | @fail i c e hi he =>
    refine ⟨h.ledger, h.view, fun c' hc' => ?_⟩
    rcases List.mem_or_eq_of_mem_set hc' with hc' | rfl
    · exact h.engines c' hc'
    · exact he

theorem CatchUpRun.inv (h : CatchUpRun model context (Calm context) tenants clock s) :
    s.Inv context tenants clock := by
  induction h with
  | start rows => exact ⟨.refl _, Or.inl rfl, fun c hc => by cases hc⟩
  | step _ hstep ih => exact hstep.inv ih

end

/-- **No false corruption alarm.**  Beside any appends, resets and engines on one projection
of one tenant, no call of `catch_up` raises `ReplayCorruptionError`, as long as no page but
the last is applied to a checkpoint that lies beyond it, past an event of an aggregate the
call remembers. -/
theorem no_false_alarm (model : ReadModel) (context : TenantContext) (tenants : List String)
    (clock : Timestamp) (s : CatchUpSys model)
    (hrun : CatchUpRun model context (Calm context) tenants clock s) :
    ∀ c ∈ s.engines, ∀ message, c.state ≠ .raised (.replayCorruptionError message) := by
  intro c hc message hstate
  have hsound := hrun.inv.engines c hc
  rw [hstate] at hsound
  exact hsound message rfl

/-! What happens otherwise: a number that is remembered too low raises the alarm at the next
event of its aggregate. -/

theorem checkVersions_stale {l : Ledger} {t : String} (hl : l.Inv) {es passed : List EventEnvelope}
    {versions : Assoc String ℕ} {a : String} {v : ℕ} (h : passed ++ es <+: l.history t)
    (hlookup : versions.lookup a = some v)
    (hstale : v ≠ (passed.filter (·.aggregateId = a)).length)
    (hmem : ∃ e ∈ es, e.aggregateId = a) :
    checkVersions versions (es.map l.replayed) =
      .error (.replayCorruptionError "aggregate sequence gap detected during replay") := by
  induction es generalizing passed versions with
  | nil =>
    obtain ⟨e, he, -⟩ := hmem
    cases he
  | cons e rest ih =>
    have hcons : passed ++ e :: rest = (passed ++ [e]) ++ rest := by
      rw [List.append_assoc, List.singleton_append]
    rw [hcons] at h
    have hnumber : e.aggregateSequence =
        (passed.filter (·.aggregateId = e.aggregateId)).length + 1 :=
      aggregateSequence_of_prefix hl ((List.prefix_append _ _).trans h)
    rw [List.map_cons, checkVersions]
    by_cases ha : e.aggregateId = a
    · subst ha
      have hgap : e.aggregateSequence ≠ v + 1 := by omega
      simp only [Ledger.replayed, hlookup, Option.any_some, hgap, ne_eq, not_false_eq_true,
        decide_true, raiseIf, if_true]
      rfl
    · obtain ⟨e', he', ha'⟩ := hmem
      have hrest : ∃ e' ∈ rest, e'.aggregateId = a := by
        rcases List.mem_cons.1 he' with rfl | he'
        · exact absurd ha' ha
        · exact ⟨e', he', ha'⟩
      have hkept : (versions.set e.aggregateId e.aggregateSequence).lookup a = some v := by
        rw [Assoc.lookup_set, if_neg (Ne.symm ha), hlookup]
      have hpassed : v ≠ ((passed ++ [e]).filter (·.aggregateId = a)).length := by
        rw [List.filter_append, List.filter_cons_of_neg (by simpa using ha), List.filter_nil,
          List.append_nil]
        exact hstale
      have hraises := ih h hkept hpassed hrest
      -- an event of another aggregate passes the check, or fails it with the same message
      rw [raiseIf_bind]
      exact (congrArg (ite _ _) hraises).trans (ite_self _)

/-- **A jump over an event of a remembered aggregate is an alarm in waiting**: it is raised by
the first page that brings another one. -/
theorem ReadModel.step_stale {model : ReadModel} {context : TenantContext} {l : Ledger}
    (hl : l.Inv) {pageSize : ℤ} (hvalid : 1 ≤ pageSize ∧ pageSize ≤ 1000)
    (view : ProjectionView model.Rows) {cursor : ℕ} {versions : Assoc String ℕ} {a : String} {v : ℕ}
    (hlookup : versions.lookup a = some v)
    (hstale : v ≠ ((l.upTo context.tenantId cursor).filter (·.aggregateId = a)).length)
    (hmem : ∃ e ∈ (l.after context.tenantId cursor).take pageSize.toNat, e.aggregateId = a) :
    (model.step context pageSize l view (.reading cursor versions)).2 =
      .raised (.replayCorruptionError "aggregate sequence gap detected during replay") := by
  have hbegins : l.upTo context.tenantId cursor ++
      (l.after context.tenantId cursor).take pageSize.toNat <+: l.history context.tenantId := by
    rw [← upTo_append_after hl context.tenantId cursor]
    exact (List.prefix_append_right_inj _).2 (List.take_prefix _ _)
  have hraises := checkVersions_stale hl hbegins hlookup hstale hmem
  rw [ReadModel.step_reading hl hvalid]
  unfold receive
  rw [hraises, if_neg]
  intro hempty
  obtain ⟨e, he, -⟩ := hmem
  rw [List.isEmpty_iff, List.map_eq_nil_iff] at hempty
  rw [hempty] at he
  cases he

/-! ### Two engines -/

/-- The listing of a tenant that is registered three times. -/
abbrev listings : ReadModel := ProjectionName.model payloadText .tenantListing

def noListing : listings.Rows := (∅ : ProjectionName.tenantListing.RowTable)

def registrationOf (n : ℕ) : EventEnvelope := { registration with eventId := UUID.ofNat n }

/-- The same as the ledger has it, `n` being its number and its position. -/
def registrationAt (n : ℕ) : EventEnvelope := (registrationOf n).stored n n 0

/-- What `read_all` makes of the registrations. -/
def registrationRows : List ReplayedEvent :=
  [⟨registrationAt 1, none⟩, ⟨registrationAt 2, some 1⟩, ⟨registrationAt 3, some 2⟩]

theorem registered_again : ∃ l : LedgerSys, LedgerRun ["acme"] 0 l ∧
    (l.shared.history "acme").map l.shared.replayed = registrationRows := by
  have hdrive : ∃ l, Sys.drive ledgerEngine AppendCall.transaction
      ⟨Ledger.fresh ["acme"] 0, []⟩
      (.call (.append ledgerContext [registrationOf 1, registrationOf 2, registrationOf 3] 0 []) ::
        List.replicate 8 (.exec 0) ++ [.commit 0]) = some l ∧
      l.shared.history "acme" = [registrationAt 1, registrationAt 2, registrationAt 3] :=
    ⟨_, rfl, rfl⟩
  obtain ⟨l, hl, hhistory⟩ := hdrive
  have hrun : LedgerRun ["acme"] 0 l := Sys.drive_run hl
  have hlag : ∀ e ∈ l.shared.history "acme", l.shared.lag e =
      if e.aggregateSequence = 1 then none else some (e.aggregateSequence - 1) :=
    fun e he => (Ledger.lag_eq hrun.good.inv.heads (List.mem_filter.1 he).1).2
  refine ⟨l, hrun, ?_⟩
  rw [hhistory] at hlag ⊢
  simp only [List.map_cons, List.map_nil, Ledger.replayed]
  rw [hlag _ (by simp), hlag _ (by simp), hlag _ (by simp)]
  rfl

section

variable {model : ReadModel} {context : TenantContext} {tenants : List String}
  {clock : Timestamp} {P : CatchUpSys model → EngineState → Prop} {l : LedgerSys}
  {v v' : ProjectionView model.Rows} {cs : List CatchUpCall}

theorem CatchUpRun.of_ledger (rows : model.Rows) (h : LedgerRun tenants clock l) :
    CatchUpRun model context P tenants clock ⟨l, ⟨rows, none⟩, []⟩ := by
  unfold LedgerRun LedgerSteps at h
  induction h with
  | refl => exact .start rows
  | tail _ hstep ih => exact ih.step (.ledger hstep)

/-- The step of an engine that is known to come to a place. -/
theorem CatchUpRun.engine (h : CatchUpRun model context P tenants clock ⟨l, v, cs⟩) (i : ℕ)
    {c : CatchUpCall} {state' : EngineState} (hi : cs[i]? = some c) (hP : P ⟨l, v, cs⟩ c.state)
    (hstep : model.step context c.pageSize l.shared v c.state = (v', state')) :
    CatchUpRun model context P tenants clock ⟨l, v', cs.set i { c with state := state' }⟩ := by
  have hnext := h.step (.engine hi hP)
  rw [hstep] at hnext
  exact hnext

end

/-- What an engine reads of the registrations. -/
theorem listings_reads {l : Ledger} (hl : l.Inv)
    (hrows : (l.history "acme").map l.replayed = registrationRows) {pageSize : ℤ}
    (hvalid : 1 ≤ pageSize ∧ pageSize ≤ 1000) (v : ProjectionView listings.Rows) (cursor : ℕ)
    (versions : Assoc String ℕ) :
    listings.step ledgerContext pageSize l v (.reading cursor versions) =
      (v, receive cursor versions pageSize ((registrationRows.filter fun row =>
        row.event.globalPosition.any (cursor < ·)).take pageSize.toNat)) := by
  rw [ReadModel.step_reading hl hvalid, List.map_take, ← hrows, List.filter_map]
  rfl

/-- A page of one event is applied after another engine has applied two. -/
theorem false_alarm : ∃ s, CatchUpRun listings ledgerContext (fun _ _ => True) ["acme"] 0 s ∧
    ∃ c ∈ s.engines, ∃ message, c.state = .raised (.replayCorruptionError message) := by
  obtain ⟨l, hl, hrows⟩ := registered_again
  have hcalls : CatchUpRun listings ledgerContext (fun _ _ => True) ["acme"] 0
      ⟨l, ⟨noListing, none⟩, [⟨1, by decide, .loading⟩, ⟨2, by decide, .loading⟩]⟩ :=
    ((CatchUpRun.of_ledger noListing hl).step (.call _ rfl)).step (.call _ rfl)
  have hfirst := (hcalls.engine 0 rfl trivial rfl).engine 0 rfl trivial
    (listings_reads hl.good.inv hrows (by decide) _ _ _)
  have hsecond := ((hfirst.engine 1 rfl trivial rfl).engine 1 rfl trivial
    (listings_reads hl.good.inv hrows (by decide) _ _ _)).engine 1 rfl trivial rfl
  have hjump := (hsecond.engine 0 rfl trivial rfl).engine 0 rfl trivial
    (listings_reads hl.good.inv hrows (by decide) _ _ _)
  exact ⟨_, hjump, _, List.mem_cons_self .., _, rfl⟩

/-- One engine reads all there is. -/
theorem no_false_alarm_listing : ∃ s,
    CatchUpRun listings ledgerContext (Calm ledgerContext) ["acme"] 0 s ∧
    s.view.position = 3 ∧ s.engines.length = 1 ∧
    ∀ c ∈ s.engines, ∀ message, c.state ≠ .raised (.replayCorruptionError message) := by
  obtain ⟨l, hl, hrows⟩ := registered_again
  have hcall : CatchUpRun listings ledgerContext (Calm ledgerContext) ["acme"] 0
      ⟨l, ⟨noListing, none⟩, [⟨5, by decide, .loading⟩]⟩ :=
    (CatchUpRun.of_ledger noListing hl).step (.call _ rfl)
  have hread := (hcall.engine 0 rfl trivial rfl).engine 0 rfl trivial
    (listings_reads hl.good.inv hrows (by decide) _ _ _)
  have happlied := hread.engine 0 rfl (fun hnext => absurd rfl hnext) rfl
  exact ⟨_, happlied, rfl, rfl, no_false_alarm listings ledgerContext ["acme"] 0 _ happlied⟩

end AegisPlatform
