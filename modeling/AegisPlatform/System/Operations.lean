import AegisPlatform.Runtime.Reconcile
import AegisPlatform.System.Invariant

/-!
# What the operations commit

Every operation of the platform, whatever runs between its transactions, commits
legitimate transactions only.  `Obeys` is the rule of one client for this store;
there is one lemma for each kind of statement, one for each kind of append, and
one for each operation.

A caller may present any lease it likes.  Where callers are **strict** they
present leases as a claim or a heartbeat returned them, and then more is known
of what they commit (`Promise`).
-/

namespace AegisPlatform

open Fallible Interleave

/-! ## The rule for one operation -/

/-- The lease was its item's attempt: it counts as long as the lease is held. -/
def LeaseKnown (lease : WorkLease) (w : World) : Prop :=
  (w.db.view lease.key).Known lease.generation lease.attempt

/-- What callers know of the leases they present. -/
def Promise (strict : Prop) (lease : WorkLease) (w : World) : Prop := strict → LeaseKnown lease w

variable {α β : Type} {strict : Prop}

/-- From `w` on the operation commits legitimate transactions only, and what it
returns satisfies `Q`. -/
def Obeys (strict : Prop) (Q : α → World → Prop) (p : Op α) (w : World) : Prop :=
  wp postgres (Legit (Promise strict)) (fun r t => ∀ a, r = .ok a → Q a t) p w

/-- What may happen to the platform between two transactions of an operation. -/
abbrev Later (strict : Prop) (w w' : World) : Prop := Moves postgres (Legit (Promise strict)) w w'

section Statements

variable {Q : β → World → Prop} {w : World}

theorem obeys_pure {b : β} (h : ∀ t, Later strict w t → Q b t) :
    Obeys strict Q (pure b) w := fun t ht a ha => by cases ha; exact h t ht

theorem obeys_throw {e : Raised} : Obeys strict Q (throw e) w := fun _ _ _ ha => (by cases ha)

theorem obeys_check {x : Except Raised α} {f : α → Op β}
    (h : ∀ a, x = .ok a → Obeys strict Q (f a) w) :
    Obeys strict Q (Proc.ofExcept x >>= f) w :=
  wp_ofExcept_bind (fun _ _ _ ha => (by cases ha)) h

theorem obeys_last_check {x : Except Raised β}
    (h : ∀ b, x = .ok b → ∀ t, Later strict w t → Q b t) :
    Obeys strict Q (Proc.ofExcept x) w :=
  wp_ofExcept fun t ht b hb => h b hb t ht

theorem obeys_query {g : World → α} {f : α → Op β}
    (h : ∀ t, Later strict w t → Obeys strict Q (f (g t)) t) :
    Obeys strict Q (Proc.query g >>= f) w := wp_query_bind h

theorem obeys_bind {R : α → World → Prop} {p : Op α} {f : α → Op β} (hp : Obeys strict R p w)
    (hf : ∀ a t, Later strict w t → R a t → Obeys strict Q (f a) t) :
    Obeys strict Q (p >>= f) w := by
  refine wp_bind p (wp_mono (fun r t hr => ?_) p (wp_later p hp))
  cases r with
  | ok a => exact hf a t hr.2 (hr.1 a rfl)
  | error e => exact fun _ ha => (by cases ha)

theorem obeys_handle {p : Op β} {f : Raised → Op β} (hp : Obeys strict Q p w)
    (hf : ∀ e t, Later strict w t → Obeys strict Q (f e) t) :
    Obeys strict Q (tryCatch p f) w := by
  refine wp_handle p (wp_mono (fun r t hr => ?_) p (wp_later p hp))
  cases r with
  | ok b => exact hr.1
  | error e => exact hf e t hr.2

/-- With nobody else about, an operation moves the platform by legitimate transactions. -/
theorem obeys_alone {p : Op β} {w' : World} {r : Except Raised β} (hp : Obeys strict Q p w)
    (h : p.alone postgres w = some (w', r)) : Later strict w w' := Proc.alone_wp hp h

/-- Nothing is asked of what the operation returns. -/
abbrev Lawful (strict : Prop) (p : Op β) (w : World) : Prop := Obeys strict (fun _ _ => True) p w

theorem lawful_pure {b : β} : Lawful strict (pure b) w := obeys_pure fun _ _ => trivial

/-- A transaction: it has to be legitimate wherever it runs. -/
theorem obeys_txn {c : Txn} {Q : Reply → World → Prop}
    (hc : ∀ t, Later strict w t → Legit (Promise strict) c t)
    (hok : ∀ t u reply, Later strict w t → World.exec c t = some (u, .ok reply) →
      Later strict t u → ∀ v, Later strict u v → Q reply v) : Obeys strict Q (Proc.txn c) w := by
  refine wp_txn hc (fun t u r v ht hexec hv reply hr => ?_) fun t v _ _ reply hr => ?_
  · subst hr
    exact hok t u reply ht hexec (.single (Or.inl ⟨c, _, hc t ht, hexec⟩)) v hv
  · have habort : (postgres.abort c t).2 = .error .transientStorageError :=
      (World.abort_cases c t).2.2.2.1
    rw [habort] at hr
    cases hr

end Statements

-- from here on operations are judged by the rules above only
attribute [irreducible] Obeys

/-! ## Appends -/

theorem validateAppend_eq_ok {context : TenantContext} {es : List EventEnvelope} {u : Unit}
    (h : validateAppend context es = .ok u) :
    es ≠ [] ∧ ∀ e ∈ es, e.tenantId = context.tenantId := by
  simp only [validateAppend, bind_eq_ok, orRaise_eq_ok, raiseIf_eq_ok] at h
  obtain ⟨first, hfirst, -, htenant, -⟩ := h
  refine ⟨?_, fun e he => ?_⟩
  · rintro rfl
    cases hfirst
  by_contra hne
  exact htenant (List.any_eq_true.2 ⟨e, he, by simpa using hne⟩)

theorem validateFence_eq_ok {es : List EventEnvelope} {f : Fence} {u : Unit}
    (h : validateFence es f = .ok u) : ∀ e ∈ es, e.aggregateId = f.workId.str := by
  simp only [validateFence, bind_eq_ok, raiseIf_eq_ok] at h
  obtain ⟨-, -, -, hitem, -⟩ := h
  intro e he
  by_contra hne
  exact hitem (List.any_eq_true.2 ⟨e, he, by simpa using hne⟩)

section Appends

variable {w : World} {context : TenantContext} {es : List EventEnvelope} {version : ℕ}
  {outbox : List OutboxMessage}

theorem obeys_appendAtomic {Q : Reply → World → Prop} {m : WorkMutation}
    (hl : ∀ t, Later strict w t → Unfenced {
      tenantId := context.tenantId
      events := es
      expectedVersion := version
      outbox := outbox
      mutation := .work m } m t)
    (hok : ∀ a t u reply, Later strict w t → Unfenced a m t → a.inbox = none →
      World.exec (.append a) t = some (u, .ok reply) → Later strict t u →
      ∀ v, Later strict u v → Q reply v) :
    Obeys strict Q (appendAtomic context es version (.work m) outbox) w :=
  obeys_check fun _ _ => obeys_txn (fun t ht => ⟨m, hl t ht⟩) fun t u reply ht =>
    hok _ t u reply ht (hl t ht) rfl

theorem lawful_appendAtomic {m : WorkMutation}
    (hl : ∀ t, Later strict w t → Unfenced {
      tenantId := context.tenantId
      events := es
      expectedVersion := version
      outbox := outbox
      mutation := .work m } m t) :
    Lawful strict (appendAtomic context es version (.work m) outbox) w :=
  obeys_appendAtomic hl fun _ _ _ _ _ _ _ _ _ _ _ => trivial

theorem lawful_appendFromInbox {source messageId : String} {m : WorkMutation}
    (hl : ∀ t, Later strict w t → Unfenced {
      tenantId := context.tenantId
      events := es
      expectedVersion := version
      inbox := some (source, messageId)
      mutation := .work m } m t) :
    Lawful strict (appendFromInbox context source messageId es version (.work m)) w :=
  obeys_check fun _ _ => obeys_check fun _ _ =>
    obeys_txn (fun t ht => ⟨m, hl t ht⟩) fun _ _ _ _ _ _ _ _ => trivial

/-- A fenced append: the transaction number it was given stays its own. -/
theorem lawful_appendFenced {lease : WorkLease} {mutation : Mutation} {f : Fence} (hw : w.Inv)
    (hf : f = ⟨context.tenantId, lease.workId, lease.token, lease.generation⟩)
    (hl : AllOf f.key es → validateFence es f = .ok () → ∀ t, Later strict w t →
      UnderFence (Promise strict) f {
        tenantId := context.tenantId
        events := es
        expectedVersion := version
        outbox := outbox
        mutation := mutation } t) :
    Lawful strict (appendFenced context es version lease mutation outbox) w := by
  unfold appendFenced
  rw [← hf]
  refine obeys_check fun _ hval => obeys_check fun _ hfence => ?_
  have hall : AllOf f.key es := by
    intro e he
    refine ⟨?_, validateFence_eq_ok hfence e he⟩
    rw [(validateAppend_eq_ok hval).2 e he, hf]
    rfl
  have hopen : Obeys strict (fun opened t => opened.tx < t.nextTx ∧
      ∀ t', t.inflight.lookup opened.tx = some t' → t'.fence = f) (Proc.txn (.openFenced f)) w := by
    refine obeys_txn (fun _ _ => trivial) fun t u reply ht hexec hstep v hv => ?_
    have hinv := (hw.moves ht).moves hstep
    rcases World.exec_openFenced hexec with ⟨-, herr⟩ | ⟨row, -, -, -, -, rfl, hr⟩
    · cases herr
    · cases hr
      refine ((World.stable_fence t.nextTx f).moves hinv ⟨Nat.lt_succ_self _, fun t' ht' => ?_⟩ hv).2
      dsimp only at ht'
      rw [Table.lookup_upsert_self, Option.some.injEq] at ht'
      rw [← ht']
  refine obeys_bind hopen fun opened t ht hown => ?_
  refine obeys_txn (fun t' ht' => ?_) fun _ _ _ _ _ _ _ _ => trivial
  have hown' := ((World.stable_fence opened.tx f).moves (hw.moves ht) hown ht').2
  exact ⟨hown'.1, f, hown'.2, hl hall hfence t' (ht.trans ht')⟩

end Appends

/-! ## Events of one item -/

theorem Batch.one {e : EventEnvelope} {key : WorkKey} {ty : DomainEventType} {g : Option ℤ}
    (h : e.IsFor key ty g) : Batch [e] [ty] g where
  types := by rw [List.map_singleton, h.eventType]
  generation := fun e' he' => by rw [List.mem_singleton.1 he', h.generation]

theorem Batch.two {e₁ e₂ : EventEnvelope} {key : WorkKey} {ty₁ ty₂ : DomainEventType}
    {g : Option ℤ} (h₁ : e₁.IsFor key ty₁ g) (h₂ : e₂.IsFor key ty₂ g) :
    Batch [e₁, e₂] [ty₁, ty₂] g where
  types := by rw [List.map_cons, List.map_singleton, h₁.eventType, h₂.eventType]
  generation := fun e he => by
    rcases List.mem_cons.1 he with rfl | he
    · exact h₁.generation
    · rw [List.mem_singleton.1 he, h₂.generation]

theorem AllOf.one {e : EventEnvelope} {key : WorkKey} {ty : DomainEventType} {g : Option ℤ}
    (h : e.IsFor key ty g) : AllOf key [e] := fun e' he' => by
  rw [List.mem_singleton.1 he']
  exact ⟨h.tenantId, h.aggregateId⟩

theorem AllOf.two {e₁ e₂ : EventEnvelope} {key : WorkKey} {ty₁ ty₂ : DomainEventType}
    {g : Option ℤ} (h₁ : e₁.IsFor key ty₁ g) (h₂ : e₂.IsFor key ty₂ g) : AllOf key [e₁, e₂] := by
  intro e he
  rcases List.mem_cons.1 he with rfl | he
  · exact ⟨h₁.tenantId, h₁.aggregateId⟩
  · exact AllOf.one h₂ e he

/-- A batch is of one item only. -/
theorem AllOf.key_eq {es : List EventEnvelope} {key key' : WorkKey} (h : AllOf key es)
    (h' : AllOf key' es) (hne : es ≠ []) : key = key' := by
  obtain ⟨e, rest, rfl⟩ := List.exists_cons_of_ne_nil hne
  obtain ⟨ht, ha⟩ := h e (List.mem_cons_self ..)
  obtain ⟨ht', ha'⟩ := h' e (List.mem_cons_self ..)
  exact Prod.ext (ht.symm.trans ht') (UUID.str_inj.1 (ha.symm.trans ha'))

theorem stable_promise (lease : WorkLease) :
    World.Stable (Promise strict) (Promise strict lease) := fun w w' hw hp hmove hs =>
  World.stable_known lease.key lease.generation lease.attempt w w' hw (hp hs) hmove

/-! ## Appends by a worker -/

section Worker

variable {w : World} {context : TenantContext} {es : List EventEnvelope} {version : ℕ}
  {outbox : List OutboxMessage} {lease held : WorkLease} {m : WorkMutation}
  {request : WorkRequest}

/-- A worker's append under the lease it presents; `held` is the lease its
mutation names. -/
theorem lawful_worker {key : WorkKey} (hw : w.Inv) (hm : m.lease? = some held)
    (hkey : m.key = key) (hheld : held.key = key) (htoken : held.token = lease.token)
    (hgen : held.generation = lease.generation) (hne : es ≠ []) (hes : AllOf key es)
    (hb : Batch es m.types (some held.generation)) (hP : Promise strict held w) :
    Lawful strict (appendFenced context es version lease (.work m) outbox) w := by
  refine lawful_appendFenced hw rfl fun hall hfence t ht => ?_
  have hfkey := hes.key_eq hall hne
  refine ⟨hfence, hall, fun m' hm' => ?_, fun hno => absurd rfl (hno m), fun _ h => (by cases h)⟩
  cases hm'
  refine ⟨held, hm, hkey.trans hfkey, hheld.trans hfkey, htoken, hgen, ?_, ?_⟩
  · rw [(WorkMutation.generation_of_lease hm).1]
    exact hb
  · exact ((stable_promise held).moves hw hP ht).2

/-- `_append_fenced` of the work repository. -/
theorem lawful_appendLease {transition : WorkTransition} {eventId : UUID} (hw : w.Inv)
    (hlease : transition.lease = some lease)
    (hd : transition.details.get? "lease_generation" = none) (hm : m.lease? = some held)
    (hheld : held.key = lease.key) (hkey : lease.key = request.key → m.key = request.key)
    (htoken : held.token = lease.token) (hgen : held.generation = lease.generation)
    (htypes : m.types = [transition.eventType]) (hP : Promise strict held w) :
    Lawful strict (appendLease context request transition lease eventId m) w := by
  refine obeys_query fun t ht => obeys_check fun event hevent => ?_
  obtain ⟨hfor, hof⟩ := WorkTransition.toEvent_spec hevent hd
  have hk : lease.key = request.key := hof lease hlease
  rw [hlease, Option.map_some, ← hgen] at hfor
  exact lawful_worker (hw.moves ht) hm (hkey hk) (hheld.trans hk) htoken hgen (by simp)
    (AllOf.one hfor) (htypes ▸ Batch.one hfor) ((stable_promise held).moves hw hP ht).2

end Worker

/-! ## The operations of the work repository -/

section Work

variable {w : World} (py : PyText) (context : TenantContext)

theorem obeys_loadRequest (workId : UUID) : Obeys strict
    (fun request _ => request.key = (context.tenantId, workId)) (loadRequest context workId) w := by
  refine obeys_query fun t ht => obeys_check fun row _ => obeys_last_check fun request hr u hu => ?_
  have hfields := WorkRequestFields.make_eq hr
  unfold WorkRequest.key
  rw [hfields]

theorem lawful_verifyDelivery (delivery : QueueDelivery) :
    Lawful strict (verifyDelivery py context delivery) w := by
  refine obeys_check fun supplied _ => obeys_check fun _ _ => obeys_query fun t ht => ?_
  refine obeys_check fun rows _ => obeys_check fun authoritative _ => obeys_check fun _ _ => ?_
  exact lawful_pure

theorem lawful_register (request : WorkRequest) (requestedEventId outboxMessageId : UUID) :
    Lawful strict (register py context request requestedEventId outboxMessageId) w := by
  refine obeys_check fun _ _ => obeys_check fun _ _ => obeys_check fun event hevent => ?_
  obtain ⟨hfor, -⟩ := WorkTransition.toEvent_spec hevent rfl
  refine obeys_bind (lawful_appendAtomic fun t _ => ?_) fun _ _ _ _ => lawful_pure
  exact ⟨rfl, rfl, AllOf.one hfor, Batch.one hfor, trivial, fun _ =>
    ⟨rfl, _, List.mem_singleton_self _, text_requestPayload py request⟩⟩

theorem lawful_markPublished (delivery : QueueDelivery) (at' : Timestamp) (ids : ℕ → UUID) :
    Lawful strict (markPublished py context delivery at' ids) w := by
  refine obeys_bind (lawful_verifyDelivery py context delivery) fun request t _ _ => ?_
  refine obeys_query fun u _ => obeys_check fun event hevent => ?_
  obtain ⟨hfor, -⟩ := WorkTransition.toEvent_spec hevent rfl
  refine obeys_bind (lawful_appendFromInbox fun v _ => ?_) fun _ _ _ _ => lawful_pure
  exact ⟨rfl, rfl, AllOf.one hfor, Batch.one hfor, trivial, fun h => (by cases h)⟩

/-- What a claim that committed has put in the database. -/
theorem known_of_claim {a : Append} {t u : World} {reply : Reply} {request : WorkRequest}
    {lease : WorkLease} {duration limit : ℤ} (hkey : lease.key = request.key)
    (hl : Unfenced a (.claimProjection request lease duration limit) t) (hinbox : a.inbox = none)
    (hexec : World.exec (.append a) t = some (u, .ok reply)) : LeaseKnown lease u := by
  rcases World.exec_append hexec with ⟨-, herr⟩ | ⟨db', reply', -, hrun, rfl, -⟩
  · obtain ⟨e, he⟩ := herr hinbox
    cases he
  · obtain ⟨es, db₁, -, hmut, -⟩ := World.runAppend_eq_ok hrun hl.allOf
    rw [hl.mutation] at hmut
    obtain ⟨item, -, -, -, -, -, rfl⟩ := Database.claimProjection_eq_ok hmut
    unfold LeaseKnown
    rw [hkey]
    exact ⟨_, Table.lookup_upsert_self .., le_rfl, fun _ _ =>
      ⟨_, Table.lookup_upsert_self .., rfl⟩⟩

theorem obeys_claim (hw : w.Inv) (delivery : QueueDelivery) (owner : String)
    (now expiresAt : Timestamp) (tenantConcurrencyLimit : ℤ) (ids : ℕ → UUID) :
    Obeys strict (fun r t => ∀ lease ∈ r, LeaseKnown lease t)
      (claim py context delivery owner now expiresAt tenantConcurrencyLimit ids) w := by
  have hnone : ∀ t, Obeys strict (fun r t => ∀ lease ∈ r, LeaseKnown lease t)
      (pure none : Op (Option WorkLease)) t := fun t =>
    obeys_pure fun _ _ _ h => (by cases h)
  refine obeys_check fun _ _ => obeys_check fun _ _ => ?_
  refine obeys_bind (lawful_verifyDelivery py context delivery) fun request t ht _ => ?_
  refine obeys_check fun _ _ => ?_
  split
  · exact hnone t
  refine obeys_query fun t₁ ht₁ => ?_
  cases hitem : (t₁.db.workItems.lookup request.key).filter _ with
  | none => exact hnone t₁
  | some item =>
    obtain ⟨hlookup, -⟩ := Option.filter_eq_some_iff.1 hitem
    dsimp only
    split
    · exact hnone t₁
    rename_i hleft
    refine obeys_query fun t₂ ht₂ => obeys_check fun lease hlease => obeys_query fun t₃ ht₃ => ?_
    refine obeys_check fun event hevent => obeys_handle ?_ fun e t₄ _ => ?_
    · obtain ⟨hfor, hof⟩ := WorkTransition.toEvent_spec hevent rfl
      have hkey : lease.key = request.key := hof lease rfl
      have hattempt : lease.attempt = item.attemptCount + 1 :=
        congrArg WorkLeaseFields.attempt (WorkLeaseFields.make_eq hlease)
      have hinv := hw.moves (ht.trans ht₁)
      -- the number of attempts it read is still the item's when the claim commits
      have hmax : ∀ t₄, Later strict t₃ t₄ →
          ∃ item' ∈ t₄.db.workItems.lookup request.key, item'.maxAttempts = item.maxAttempts :=
        fun t₄ ht₄ => ((World.stable_maxAttempts request.key item.maxAttempts).moves hinv
          ⟨item, hlookup, rfl⟩ (ht₂.trans (ht₃.trans ht₄))).2
      have happend : Obeys strict (fun _ t => LeaseKnown lease t)
          (appendAtomic context [event] (t₃.db.version context.tenantId request.workId.str)
            (.work (.claimProjection request lease (expiresAt - now) tenantConcurrencyLimit))) t₃ := by
        refine obeys_appendAtomic (fun t₄ ht₄ => ?_)
          fun a t₄ u reply ht₄ hl hinbox hexec hstep v hv => ?_
        · obtain ⟨item', hitem', hmax'⟩ := hmax t₄ ht₄
          exact ⟨rfl, rfl, AllOf.one hfor, Batch.one hfor, ⟨hkey, item', hitem', by omega⟩,
            fun h => (by cases h)⟩
        · have hu := hinv.moves (ht₂.trans (ht₃.trans (ht₄.trans hstep)))
          exact ((World.stable_known _ _ _).moves hu (known_of_claim hkey hl hinbox hexec) hv).2
      refine obeys_bind happend fun reply u hu hknown => ?_
      have huinv := hinv.moves (ht₂.trans (ht₃.trans hu))
      refine obeys_check fun times _ => obeys_check fun held hheld => obeys_pure fun v hv => ?_
      have hfields := WorkLeaseFields.make_eq hheld
      rintro lease' hlease'
      cases hlease'
      unfold LeaseKnown WorkLease.key at *
      rw [hfields]
      exact ((World.stable_known _ _ _).moves huinv hknown hv).2
    · split
      · exact hnone t₄
      · exact obeys_throw

/-! ### Under a lease -/

section Lease

variable {py context} {lease : WorkLease} (hw : w.Inv) (hP : Promise strict lease w)
  (delivery : QueueDelivery) (at' : Timestamp) (ids : ℕ → UUID)

include hw hP

theorem lawful_start : Lawful strict (start py context delivery lease at' ids) w := by
  refine obeys_check fun request _ => ?_
  exact obeys_bind (lawful_appendLease hw rfl rfl rfl rfl (fun _ => rfl) rfl rfl rfl hP)
    fun _ _ _ _ => lawful_pure

theorem lawful_succeed (resultReference : String) :
    Lawful strict (succeed py context delivery lease at' resultReference ids) w := by
  refine obeys_check fun request _ => ?_
  exact obeys_bind (lawful_appendLease hw rfl rfl rfl rfl id rfl rfl rfl hP)
    fun _ _ _ _ => lawful_pure

theorem lawful_cancel : Lawful strict (cancel py context delivery lease at' ids) w := by
  refine obeys_check fun request _ => ?_
  exact obeys_bind (lawful_appendLease hw rfl rfl rfl rfl id rfl rfl rfl hP)
    fun _ _ _ _ => lawful_pure

theorem lawful_release (reason : String) (retryAt : Timestamp) :
    Lawful strict (release py context lease at' reason retryAt ids) w := by
  refine obeys_check fun _ _ => ?_
  refine obeys_bind (obeys_loadRequest context lease.workId) fun request t ht _ => ?_
  have hP' := ((stable_promise lease).moves hw hP ht).2
  exact obeys_bind (lawful_appendLease (hw.moves ht) rfl rfl rfl rfl id rfl rfl rfl hP')
    fun _ _ _ _ => lawful_pure

/-- A heartbeat returns the lease it was given, with new times. -/
theorem obeys_heartbeat (expiresAt : Timestamp) :
    Obeys strict (fun renewed t => Promise strict renewed t)
      (heartbeat py context delivery lease at' expiresAt ids) w := by
  refine obeys_check fun _ _ => obeys_check fun _ _ => obeys_check fun renewed hrenewed => ?_
  have hfields := WorkLeaseFields.make_eq hrenewed
  have hkey : lease.key = renewed.key := by unfold WorkLease.key; rw [hfields]
  refine obeys_check fun request _ => ?_
  refine obeys_bind (lawful_appendLease hw rfl rfl rfl hkey (fun h => hkey.trans h)
    (by rw [hfields]) (by rw [hfields]) rfl hP) fun reply t ht _ => ?_
  refine obeys_check fun times _ => obeys_last_check fun result hresult u hu => ?_
  have hfields' := WorkLeaseFields.make_eq hresult
  have hknown := ((stable_promise lease).moves hw hP (ht.trans hu)).2
  unfold Promise LeaseKnown WorkLease.key at *
  rw [hfields', hfields]
  exact hknown

theorem lawful_fail (failureClass : FailureClass) (errorCode : String)
    (retryAt : Option Timestamp) :
    Lawful strict (fail py context delivery lease at' failureClass errorCode retryAt ids) w := by
  refine obeys_check fun _ _ => obeys_check fun request _ => obeys_check fun failed hfailed => ?_
  obtain ⟨hfor, hof⟩ := WorkTransition.toEvent_spec hfailed rfl
  have hkey : lease.key = request.key := hof lease rfl
  split
  · refine obeys_check fun second hsecond => obeys_query fun t ht => ?_
    obtain ⟨hfor₂, -⟩ := WorkTransition.toEvent_spec hsecond rfl
    have hP' := ((stable_promise lease).moves hw hP ht).2
    exact obeys_bind (lawful_worker (hw.moves ht) rfl hkey hkey rfl rfl (by simp)
      (AllOf.two hfor hfor₂) (Batch.two hfor hfor₂) hP') fun _ _ _ _ => lawful_pure
  · refine obeys_check fun second hsecond => obeys_query fun t ht => ?_
    obtain ⟨hfor₂, -⟩ := WorkTransition.toEvent_spec hsecond rfl
    have hP' := ((stable_promise lease).moves hw hP ht).2
    exact obeys_bind (lawful_worker (hw.moves ht) rfl hkey hkey rfl rfl (by simp)
      (AllOf.two hfor hfor₂) (Batch.two hfor hfor₂) hP') fun _ _ _ _ => lawful_pure

end Lease

/-! ### Cancellation -/

theorem lawful_requestCancel (request : WorkRequest) (at' : Timestamp) (actorId : Option String)
    (ids : ℕ → UUID) : Lawful strict (requestCancel context request at' actorId ids) w := by
  refine obeys_query fun t _ => obeys_check fun status _ => obeys_check fun _ hterminal => ?_
  have hstatus : status.isTerminal = false := by simpa using raiseIf_eq_ok.1 hterminal
  refine obeys_check fun requested hrequested => ?_
  obtain ⟨hfor, -⟩ := WorkTransition.toEvent_spec hrequested (by cases actorId <;> rfl)
  by_cases hq : status.isQueued = true
  · simp only [hq, if_true]
    refine obeys_check fun cancelled hcancelled => ?_
    obtain ⟨hfor₂, -⟩ := WorkTransition.toEvent_spec hcancelled rfl
    refine obeys_query fun u _ => ?_
    refine obeys_bind (lawful_appendAtomic fun v _ => ?_) fun _ _ _ _ => lawful_pure
    refine ⟨rfl, rfl, AllOf.two hfor hfor₂, ?_, hstatus, fun h => ?_⟩
    · rw [WorkMutation.types, if_pos hq]
      exact Batch.two hfor hfor₂
    · rw [WorkMutation.op, if_pos hq] at h
      cases h
  · simp only [hq, if_false, Bool.false_eq_true]
    refine obeys_query fun u _ => ?_
    refine obeys_bind (lawful_appendAtomic fun v _ => ?_) fun _ _ _ _ => lawful_pure
    refine ⟨rfl, rfl, AllOf.one hfor, ?_, hstatus, fun h => ?_⟩
    · rw [WorkMutation.types, if_neg hq]
      exact Batch.one hfor
    · rw [WorkMutation.op, if_neg hq] at h
      cases h

theorem lawful_cancelById (workId : UUID) (at' : Timestamp) (actorId : String) (ids : ℕ → UUID) :
    Lawful strict (cancelById context workId at' actorId ids) w :=
  obeys_check fun _ _ => obeys_bind (obeys_loadRequest context workId) fun request _ _ _ =>
    lawful_requestCancel context request at' (some actorId) ids

end Work

/-! ## Reconciliation and the dead letters -/

/-- What a reconciliation has read of an expired lease, and what stays true of
it. -/
def ExpiredLeaseRow.Seen (row : ExpiredLeaseRow) (tenantId : String) (w : World) : Prop :=
  (w.db.view (tenantId, row.workId)).Known row.lease.generation row.item.attemptCount ∧
    ∃ item ∈ w.db.workItems.lookup (tenantId, row.workId), item.maxAttempts = row.item.maxAttempts

theorem seen_of_mem {w : World} {tenantId : String} {now : Timestamp} {limit : ℕ}
    {row : ExpiredLeaseRow} (h : row ∈ expiredRows w tenantId now limit) : row.Seen tenantId w := by
  have hmem := List.mem_mergeSort.1 (List.mem_of_mem_take h)
  obtain ⟨⟨⟨tenantId', workId⟩, lease⟩, hlease, hrow⟩ := List.mem_filterMap.1 hmem
  split at hrow
  · rename_i hcond
    obtain ⟨item, hitem, rfl⟩ := Option.map_eq_some_iff.1 hrow
    obtain rfl : tenantId' = tenantId := hcond.1
    exact ⟨⟨lease, Table.mem_rows.1 hlease, le_rfl, fun _ _ => ⟨item, hitem, rfl⟩⟩,
      item, hitem, rfl⟩
  · cases hrow

theorem stable_seen (row : ExpiredLeaseRow) (tenantId : String) :
    World.Stable (Promise strict) (row.Seen tenantId) := fun w w' hw hseen hmove =>
  ⟨World.stable_known _ _ _ w w' hw hseen.1 hmove,
    World.stable_maxAttempts _ _ w w' hw hseen.2 hmove⟩

section Reconcile

variable {w : World} (py : PyText) (context : TenantContext) (now : Timestamp) (ids : ℕ → UUID)

theorem lawful_committed {append : Op Reply} (h : Lawful strict append w) :
    Lawful strict (committed append) w := by
  refine obeys_handle (obeys_bind h fun _ _ _ _ => lawful_pure) fun e t _ => ?_
  split
  · exact lawful_pure
  · exact obeys_throw

theorem lawful_redriveOne (workId messageId eventId : UUID) :
    Lawful strict (redriveOne context now workId messageId eventId) w := by
  refine obeys_bind (obeys_loadRequest context workId) fun request t _ hkey => ?_
  refine obeys_check fun event hevent => obeys_query fun u _ => lawful_committed ?_
  obtain ⟨hfor, -⟩ := WorkTransition.toEvent_spec hevent rfl
  rw [hkey] at hfor
  exact lawful_appendAtomic fun v _ =>
    ⟨rfl, rfl, AllOf.one hfor, Batch.one hfor, trivial, fun h => (by cases h)⟩

theorem lawful_expireOne (hw : w.Inv) {row : ExpiredLeaseRow}
    (hseen : row.Seen context.tenantId w) (eventId outcomeId : UUID) :
    Lawful strict (expireOne context now row eventId outcomeId) w := by
  refine obeys_check fun lease hlease => ?_
  have hfields := WorkLeaseFields.make_eq hlease
  refine obeys_bind (obeys_loadRequest context row.workId) fun request t ht hkey => ?_
  refine obeys_check fun expired hexpired => obeys_check fun outcome houtcome => ?_
  refine obeys_query fun u hu => lawful_committed (lawful_appendAtomic fun v hv => ?_)
  have hdetails : ∀ cancelled exhausted,
      (expiryOutcome cancelled exhausted).2.get? "lease_generation" = none := by
    intro cancelled exhausted
    cases cancelled <;> cases exhausted <;> rfl
  obtain ⟨hfor, hof⟩ := WorkTransition.toEvent_spec hexpired rfl
  obtain ⟨hfor₂, -⟩ := WorkTransition.toEvent_spec houtcome (hdetails _ _)
  have hleasekey : lease.key = request.key := hof lease rfl
  rw [← hleasekey] at hfor hfor₂
  -- what was read when the page was read is still so
  obtain ⟨hknown, item, hitem, hmax⟩ :=
    ((stable_seen row context.tenantId).moves hw hseen (ht.trans (hu.trans hv))).2
  have hgen : lease.generation = row.lease.generation := by rw [hfields]
  have hattempt : lease.attempt = row.item.attemptCount := by rw [hfields]
  have hk : lease.key = (context.tenantId, row.workId) := hleasekey.trans hkey
  refine ⟨rfl, rfl, AllOf.two hfor hfor₂, Batch.two hfor hfor₂, ⟨fun stream => ?_, item, ?_, ?_⟩,
    fun h => ?_⟩
  · rw [hk, hgen, hattempt]
    exact hknown
  · rw [hk]
    exact hitem
  · rw [hmax, hattempt]
  · rw [WorkMutation.op] at h
    split at h
    · cases h
    · split at h <;> cases h

theorem lawful_redriveAll (n : ℕ) (rows : List (UUID × UUID)) :
    Lawful strict (redriveAll context now ids n rows) w := by
  induction rows generalizing n w with
  | nil => exact lawful_pure
  | cons row rest ih =>
    obtain ⟨workId, messageId⟩ := row
    refine obeys_bind (lawful_redriveOne context now workId messageId _) fun _ t _ _ => ?_
    exact obeys_bind (ih (n + 1)) fun _ _ _ _ => lawful_pure

theorem lawful_expireAll (hw : w.Inv) (n : ℕ) (rows : List ExpiredLeaseRow)
    (hseen : ∀ row ∈ rows, row.Seen context.tenantId w) :
    Lawful strict (expireAll context now ids n rows) w := by
  induction rows generalizing n w with
  | nil => exact lawful_pure
  | cons row rest ih =>
    refine obeys_bind (lawful_expireOne context now hw (hseen row (List.mem_cons_self ..)) _ _)
      fun _ t ht _ => ?_
    have hrest : ∀ row ∈ rest, row.Seen context.tenantId t := fun row hrow =>
      ((stable_seen row context.tenantId).moves hw (hseen row (List.mem_cons_of_mem _ hrow)) ht).2
    exact obeys_bind (ih (hw.moves ht) (n + 2) hrest) fun _ _ _ _ => lawful_pure

theorem lawful_reconcileExpired (hw : w.Inv) (limit : ℤ) :
    Lawful strict (reconcileExpired context now limit ids) w := by
  have hloops : ∀ (t : World) (redrives : List (UUID × UUID)) (expired : List ExpiredLeaseRow),
      t.Inv → (∀ row ∈ expired, row.Seen context.tenantId t) →
      Lawful strict (do
        let redriven ← redriveAll context now ids 0 redrives
        let released ← expireAll context now ids redrives.length expired
        return redriven ++ released) t := by
    intro t redrives expired ht hseen
    refine obeys_bind (lawful_redriveAll context now ids 0 redrives) fun _ u hu _ => ?_
    have hseen' : ∀ row ∈ expired, row.Seen context.tenantId u := fun row hrow =>
      ((stable_seen row context.tenantId).moves ht (hseen row hrow) hu).2
    exact obeys_bind (lawful_expireAll context now ids (ht.moves hu) _ expired hseen')
      fun _ _ _ _ => lawful_pure
  refine obeys_check fun _ _ => obeys_query fun t ht => ?_
  dsimp only
  split
  · exact obeys_query fun u hu =>
      hloops u _ _ (hw.moves (ht.trans hu)) fun row hrow => seen_of_mem hrow
  · exact hloops t _ [] (hw.moves ht) fun row hrow => (by cases hrow)

theorem lawful_requeueDeadLetter (workId : UUID) (at' : Timestamp) (approval : RequeueApproval)
    (actorId : String) :
    Lawful strict (requeueDeadLetter py context workId at' approval actorId ids) w := by
  refine obeys_bind (obeys_loadRequest context workId) fun request t _ hkey => ?_
  refine obeys_check fun event hevent => obeys_query fun u _ => ?_
  obtain ⟨hfor, -⟩ := WorkTransition.toEvent_spec hevent rfl
  refine obeys_bind (lawful_appendAtomic fun v _ => ?_) fun _ _ _ _ => lawful_pure
  have hm : request.key = (request.tenantId, workId) :=
    Prod.ext rfl (show request.workId = workId from congrArg Prod.snd hkey)
  rw [hm] at hfor
  exact ⟨rfl, rfl, AllOf.one hfor, Batch.one hfor, trivial, fun h => (by cases h)⟩

theorem lawful_approveDeadLetterRequeue (workId : UUID) (approval : RequeueApproval)
    (expiresAt : Timestamp) :
    Lawful strict (approveDeadLetterRequeue context workId approval expiresAt) w :=
  obeys_check fun _ _ => obeys_bind (obeys_txn (fun _ _ => trivial)
    fun _ _ _ _ _ _ _ _ => trivial) fun _ _ _ _ => lawful_pure

end Reconcile

/-! ## The outbox -/

section Outbox

variable {w : World} (context : TenantContext) (messageId : UUID) (leaseOwner : String)
  (leaseExpiresAt : Timestamp)

theorem lawful_outbox {c : Txn} (hc : c.isOutbox = true) : Lawful strict (Proc.txn c) w := by
  refine obeys_txn (fun t _ => ?_) fun _ _ _ _ _ _ _ _ => trivial
  cases c <;> trivial

theorem lawful_claimOutbox (now : Timestamp) (limit : ℤ) (destination : Option String) :
    Lawful strict (claimOutbox context leaseOwner leaseExpiresAt now limit destination) w :=
  obeys_check fun _ _ => obeys_check fun _ _ =>
    obeys_bind (lawful_outbox rfl) fun _ _ _ _ => lawful_pure

theorem lawful_markOutboxPublished (publishedAt : Timestamp) : Lawful strict
    (markOutboxPublished context messageId leaseOwner leaseExpiresAt publishedAt) w :=
  obeys_bind (lawful_outbox rfl) fun _ _ _ _ => lawful_pure

theorem lawful_markOutboxFailed (retryAt : Timestamp) (errorCode : String) : Lawful strict
    (markOutboxFailed context messageId leaseOwner leaseExpiresAt retryAt errorCode) w :=
  obeys_check fun _ _ => obeys_bind (lawful_outbox rfl) fun _ _ _ _ => lawful_pure

theorem lawful_markOutboxDeadLettered (errorCode : String) : Lawful strict
    (markOutboxDeadLettered context messageId leaseOwner leaseExpiresAt errorCode) w :=
  obeys_check fun _ _ => obeys_bind (lawful_outbox rfl) fun _ _ _ _ => lawful_pure

end Outbox

end AegisPlatform
