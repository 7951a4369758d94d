import AegisPlatform.System.Reservations

/-!
# A lease holder and its own calls

While a handler runs, two tasks of the worker append to the stream of the same
item: the supervisor's heartbeats and the handler's model calls.  Each reads the
head of the stream and appends at it in a later transaction.

* `Holder.Careful` — the rule for one call of the holder: past its read it knows
  the head of the stream, and it presents the lease.
* `Holder.Calm` — every call of the holder follows the rule and the lease is
  held; `Holder.Calm.step` is its preservation.
* `holder_undefeated` — none of the holder's calls ends in a `ConcurrencyError`,
  in every run in which no append of the holder commits while another of its
  calls is past its read.
-/

namespace AegisPlatform

open Fallible Interleave

/-! ## What does not raise a `ConcurrencyError` -/

/-- It is not caught by `except ConcurrencyError`. -/
def Raised.NoConflict (e : Raised) : Prop := e.isConcurrencyError = false

theorem noConflict_freezeJsonMapping (fields : Dict) :
    RaisesOnly Raised.NoConflict (freezeJsonMapping fields) := by
  unfold freezeJsonMapping
  split
  · exact raisesOnly_ok ()
  · exact raisesOnly_error rfl

theorem EventEnvelope.noConflict_make (e : EventEnvelope) : RaisesOnly Raised.NoConflict e.make :=
  raisesOnly_bind (raisesOnly_raiseIf fun _ => rfl) fun _ _ =>
  raisesOnly_bind (raisesOnly_raiseIf fun _ => rfl) fun _ _ =>
  raisesOnly_bind (raisesOnly_raiseIf fun _ => rfl) fun _ _ =>
  raisesOnly_bind (noConflict_freezeJsonMapping _) fun _ _ => raisesOnly_ok _

theorem WorkTransition.noConflict_toEvent (t : WorkTransition) (request : WorkRequest)
    (eventId : UUID) (causationId : Option UUID) :
    RaisesOnly Raised.NoConflict (t.toEvent request eventId causationId) :=
  raisesOnly_bind (raisesOnly_raiseIf fun _ => rfl) fun _ _ => EventEnvelope.noConflict_make _

theorem noConflict_validateAppend (context : TenantContext) (events : List EventEnvelope) :
    RaisesOnly Raised.NoConflict (validateAppend context events) :=
  raisesOnly_bind (raisesOnly_orRaise fun _ => rfl) fun _ _ =>
  raisesOnly_bind (raisesOnly_raiseIf fun _ => rfl) fun _ _ =>
  raisesOnly_bind (raisesOnly_raiseIf fun _ => rfl) fun _ _ =>
  raisesOnly_bind (raisesOnly_raiseIf fun _ => rfl) fun _ _ => raisesOnly_raiseIf fun _ => rfl

theorem noConflict_validateFence (events : List EventEnvelope) (f : Fence) :
    RaisesOnly Raised.NoConflict (validateFence events f) :=
  raisesOnly_bind (raisesOnly_raiseIf fun _ => rfl) fun _ _ =>
  raisesOnly_bind (raisesOnly_raiseIf fun _ => rfl) fun _ _ => raisesOnly_raiseIf fun _ => rfl

theorem WorkLeaseFields.noConflict_make (l : WorkLeaseFields) :
    RaisesOnly Raised.NoConflict l.make := by
  have hcheck : RaisesOnly Raised.NoConflict l.check :=
    raisesOnly_bind (raisesOnly_raiseIf fun _ => rfl) fun _ _ =>
    raisesOnly_bind (raisesOnly_raiseIf fun _ => rfl) fun _ _ => raisesOnly_raiseIf fun _ => rfl
  unfold make
  split
  · exact raisesOnly_ok _
  · exact raisesOnly_error (hcheck _ (by assumption))

theorem noConflict_requestFromDelivery (py : PyText) (delivery : QueueDelivery) :
    RaisesOnly Raised.NoConflict (requestFromDelivery py delivery) := by
  unfold requestFromDelivery
  dsimp only
  split
  · exact raisesOnly_orRaise fun _ => rfl
  · exact raisesOnly_orRaise fun _ => rfl
  · exact raisesOnly_error rfl

theorem noConflict_actualUsage (pricing : PricingVersion) (response : ModelResponse)
    (reservation : BudgetReservation) :
    RaisesOnly Raised.NoConflict (actualUsage pricing response reservation) :=
  raisesOnly_bind (raisesOnly_raiseIf fun _ => rfl) fun _ _ =>
  raisesOnly_bind (raisesOnly_raiseIf fun _ => rfl) fun _ _ => raisesOnly_ok _

namespace Gateway

theorem noConflict_validate (context : TenantContext) (request : ModelRequest)
    (lease : WorkLease) : RaisesOnly Raised.NoConflict (validate context request lease) :=
  raisesOnly_raiseIf fun _ => rfl

theorem noConflict_events (py : PyText) (request : ModelRequest) (lease : WorkLease)
    (at' : Timestamp) (ids : ℕ → UUID) (index : ℕ) (causation : Option UUID)
    (values : List (DomainEventType × Dict)) :
    RaisesOnly Raised.NoConflict (events py request lease at' ids index causation values) := by
  induction values generalizing index causation with
  | nil => exact raisesOnly_ok _
  | cons v rest ih =>
    exact raisesOnly_bind (EventEnvelope.noConflict_make _) fun _ _ =>
      raisesOnly_bind (ih _ _) fun _ _ => raisesOnly_ok _

end Gateway

namespace Database

variable {db : Database}

/-- An append at the head of the stream it is for conflicts with nothing. -/
theorem noConflict_appendInTransaction {recordedAt : Timestamp} {es : List EventEnvelope}
    {expectedVersion : ℕ} {messages : List OutboxMessage} {key : WorkKey} (hall : AllOf key es)
    (hversion : db.version key.1 key.2.str = expectedVersion) :
    RaisesOnly Raised.NoConflict
      (db.appendInTransaction recordedAt es expectedVersion messages) := by
  refine raisesOnly_appendInTransaction rfl (fun _ => rfl) fun first hfirst hne => ?_
  obtain ⟨htenant, haggregate⟩ := hall first (List.mem_of_mem_head? hfirst)
  rw [htenant, haggregate] at hne
  exact absurd hversion hne

theorem noConflict_reserveRow (underMaintenance : String → Bool) (request : ModelRequest)
    (lease : WorkLease) (reservation : BudgetReservation) (quotas : QuotaLimits)
    (at' : Timestamp) : RaisesOnly Raised.NoConflict
      (db.reserveRow underMaintenance request lease reservation quotas at') :=
  raisesOnly_bind (raisesOnly_raiseIf fun _ => rfl) fun _ _ =>
  raisesOnly_bind (raisesOnly_orRaise fun _ => rfl) fun _ _ =>
  raisesOnly_bind (raisesOnly_raiseIf fun _ => rfl) fun _ _ =>
  raisesOnly_bind (raisesOnly_bind (raisesOnly_raiseIf fun _ => rfl) fun _ _ =>
    raisesOnly_bind (raisesOnly_raiseIf fun _ => rfl) fun _ _ =>
    raisesOnly_bind (raisesOnly_raiseIf fun _ => rfl) fun _ _ =>
    raisesOnly_raiseIf fun _ => rfl) fun _ _ =>
  raisesOnly_bind (raisesOnly_raiseIf fun _ => rfl) fun _ _ =>
  raisesOnly_bind (raisesOnly_raiseIf fun _ => rfl) fun _ _ =>
  raisesOnly_bind (raisesOnly_orRaise fun _ => rfl) fun _ _ =>
  raisesOnly_bind (raisesOnly_orRaise fun _ => rfl) fun _ _ =>
  raisesOnly_bind (raisesOnly_orRaise fun _ => rfl) fun _ _ => raisesOnly_ok _

end Database

/-- The reservation a mutation settles. -/
def GatewayMutation.settles? : GatewayMutation → Option (String × UUID)
  | reserve .. => none
  | charge request _ reservation .. | release request _ reservation .. =>
    some (request.tenantId, reservation.reservationId)

/-- The reservation a mutation settles, if it settles one, is active under the lease
it presents. -/
def GatewayMutation.Settleable (m : GatewayMutation) (db : Database) : Prop :=
  ∀ k ∈ m.settles?, ∃ row ∈ db.reservations.lookup k, row.isActive = true ∧
    row.leaseToken = m.lease.token ∧ row.leaseGeneration = m.lease.generation

instance (m : GatewayMutation) (db : Database) : Decidable (m.Settleable db) :=
  inferInstanceAs (Decidable (∀ k ∈ m.settles?, ∃ row ∈ db.reservations.lookup k,
    row.isActive = true ∧ row.leaseToken = m.lease.token ∧
      row.leaseGeneration = m.lease.generation))

theorem GatewayMutation.noConflict_run {m : GatewayMutation} {underMaintenance : String → Bool}
    {db : Database} (hm : m.Settleable db) :
    RaisesOnly Raised.NoConflict (m.run underMaintenance db) := by
  have hsettle : ∀ {k : String × UUID} {state : ReservationState}, m.settles? = some k →
      RaisesOnly Raised.NoConflict (db.settleReservation k.1 k.2 m.lease state) := by
    intro k state hk
    obtain ⟨row, hrow, hactive, htoken, hgen⟩ := hm k hk
    refine raisesOnly_bind (raisesOnly_orRaise fun hnone => ?_) fun _ _ => raisesOnly_ok _
    rw [Option.mem_def] at hrow
    simp [Table.updateWhere, hrow, hactive, htoken, hgen] at hnone
  cases m with
  | reserve => exact Database.noConflict_reserveRow _ _ _ _ _ _
  | charge =>
    exact raisesOnly_bind (hsettle rfl) fun _ _ =>
      raisesOnly_bind (raisesOnly_orRaise fun _ => rfl) fun _ _ =>
      raisesOnly_bind (raisesOnly_orRaise fun _ => rfl) fun _ _ =>
      raisesOnly_bind (raisesOnly_orRaise fun _ => rfl) fun _ _ => raisesOnly_ok _
  | release => exact hsettle rfl

/-! ## The holder of a lease -/

/-- The holder of a lease. -/
structure Holder where
  key : WorkKey
  token : UUID
  generation : ℤ
  owner : String
  deriving DecidableEq

namespace Holder

variable (h : Holder)

/-- The fence its appends present. -/
def fence : Fence := ⟨h.key.1, h.key.2, h.token, h.generation⟩

/-- It is the holder's lease. -/
def Owns (lease : WorkLease) : Prop :=
  lease.key = h.key ∧ lease.token = h.token ∧ lease.generation = h.generation ∧
    lease.owner = h.owner

/-- The head of the item's stream. -/
def head (w : World) : ℕ := w.db.version h.key.1 h.key.2.str

/-- The item is held under the holder's lease. -/
def Holds (w : World) : Prop :=
  ∃ row, w.db.workLeases.lookup h.key = some row ∧ row.holds h.token h.generation = true ∧
    row.owner = h.owner

/-- The lease has not run out. -/
def Lives (w : World) : Prop := ∀ row ∈ w.db.workLeases.lookup h.key, w.clock < row.expiresAt

instance (w : World) : Decidable (h.Lives w) :=
  inferInstanceAs (Decidable (∀ row ∈ w.db.workLeases.lookup h.key, w.clock < row.expiresAt))

/-- A mutation of the holder's calls. -/
def Makes : Mutation → Prop
  | .none => True
  | .work (.renewLease lease _) => h.Owns lease
  | .work _ => False
  | .gateway _ => True

/-- A transaction of the holder's calls, when the head of the stream is `v`. -/
def Presents (v : ℕ) : Txn → Prop
  | .openFenced f => f = h.fence
  | .closeFenced _ a => a.expectedVersion = v ∧ AllOf h.key a.events ∧ h.Makes a.mutation
  | _ => False

/-- **The rule for one call.**  It reads the head of the stream, appends at the head
it read, presents the lease, and raises no `ConcurrencyError` of its own.  `v` is
the head of the stream; the rule does not depend on it before the read. -/
def Careful {α : Type} (Q : ℕ → α → Prop) (v : ℕ) : Op α → Prop
  | .ret a => Q v a
  | .raise e => e.NoConflict
  | .read next => ∀ w, Careful Q (h.head w) (next w)
  | .commit c next => h.Presents v c ∧ ∀ r : Except Raised Reply, RaisesOnly Raised.NoConflict r →
      ∀ v', (c = .openFenced h.fence → v' = v) → Careful Q v' (next r)

variable {h} {α β : Type} {Q : ℕ → α → Prop} {v : ℕ}

theorem careful_bind {Q : ℕ → β → Prop} {p : Op α} {f : α → Op β}
    (hp : h.Careful (fun v a => h.Careful Q v (f a)) v p) : h.Careful Q v (p.bind f) := by
  induction p generalizing v with
  | ret a => exact hp
  | raise e => exact hp
  | read next ih => exact fun w => ih w (hp w)
  | commit c next ih => exact ⟨hp.1, fun r hr v' hv' => ih r (hp.2 r hr v' hv')⟩

theorem careful_ofExcept {x : Except Raised α} (hx : RaisesOnly Raised.NoConflict x)
    (hok : ∀ a, x = .ok a → Q v a) : h.Careful Q v (Proc.ofExcept x) := by
  cases x with
  | ok a => exact hok a rfl
  | error e => exact hx e rfl

theorem careful_mono {Q' : ℕ → α → Prop} (hQ : ∀ v a, Q v a → Q' v a) {p : Op α}
    (hp : h.Careful Q v p) : h.Careful Q' v p := by
  induction p generalizing v with
  | ret a => exact hQ v a hp
  | raise e => exact hp
  | read next ih => exact fun w => ih w (hp w)
  | commit c next ih => exact ⟨hp.1, fun r hr v' hv' => ih r (hp.2 r hr v' hv')⟩

/-- A check of the arguments. -/
theorem careful_check {Q : ℕ → β → Prop} {x : Except Raised α} {f : α → Op β}
    (hx : RaisesOnly Raised.NoConflict x) (hok : ∀ a, x = .ok a → h.Careful Q v (f a)) :
    h.Careful Q v ((Proc.ofExcept x).bind f) := careful_bind (careful_ofExcept hx hok)

/-- Before its read and after its append a call does not care about the head. -/
theorem careful_of_not_commit {p : Op α} (hp : h.Careful (fun _ _ => True) v p)
    (hne : ∀ c next, p ≠ .commit c next) (v' : ℕ) : h.Careful (fun _ _ => True) v' p := by
  cases p with
  | ret a => trivial
  | raise e => exact hp
  | read next => exact hp
  | commit c next => exact absurd rfl (hne c next)

/-! ### The rule for the holder's calls -/

variable {context : TenantContext} {lease : WorkLease}

theorem careful_appendFenced {events : List EventEnvelope} {mutation : Mutation}
    (htenant : context.tenantId = h.key.1) (hlease : h.Owns lease)
    (hmakes : h.Makes mutation) (hall : AllOf h.key events) :
    h.Careful (fun _ _ => True) v (appendFenced context events v lease mutation) := by
  obtain ⟨hkey, htoken, hgen, -⟩ := hlease
  have hfence : (⟨context.tenantId, lease.workId, lease.token, lease.generation⟩ : Fence) =
      h.fence := by
    rw [fence, htenant, htoken, hgen, ← hkey]
    rfl
  refine careful_check (noConflict_validateAppend _ _) fun _ _ => ?_
  refine careful_check (noConflict_validateFence _ _) fun _ _ => ?_
  refine careful_bind ⟨hfence, fun r hr v' hv' => ?_⟩
  obtain rfl := hv' (by rw [hfence])
  refine careful_ofExcept hr fun opened _ => ?_
  exact ⟨⟨rfl, hall, hmakes⟩, fun r hr v' _ => careful_ofExcept hr fun _ _ => trivial⟩

theorem careful_heartbeat (py : PyText) (htenant : context.tenantId = h.key.1)
    (hlease : h.Owns lease) (delivery : QueueDelivery) (at' expiresAt : Timestamp)
    (ids : ℕ → UUID) :
    h.Careful (fun _ _ => True) v (heartbeat py context delivery lease at' expiresAt ids) := by
  refine careful_check (raisesOnly_raiseIf fun _ => rfl) fun _ _ => ?_
  refine careful_check (raisesOnly_raiseIf fun _ => rfl) fun _ _ => ?_
  refine careful_check (WorkLeaseFields.noConflict_make _) fun renewed hrenewed => ?_
  have hfields := WorkLeaseFields.make_eq hrenewed
  have hrenewed' : h.Owns renewed := by
    unfold Owns WorkLease.key at *
    rw [hfields]
    exact hlease
  refine careful_check (noConflict_requestFromDelivery _ _) fun request _ => ?_
  refine careful_bind ?_
  intro w
  refine careful_check (WorkTransition.noConflict_toEvent _ _ _ _) fun event hevent => ?_
  obtain ⟨hisfor, hon⟩ := WorkTransition.toEvent_spec hevent rfl
  have hkey : request.key = h.key := (hon renewed rfl).symm.trans hrenewed'.1
  have hhead : w.db.version context.tenantId request.workId.str = h.head w := by
    rw [head, htenant, ← hkey]
    rfl
  have hall : AllOf h.key [event] := by
    intro e he
    rw [List.mem_singleton.1 he, ← hkey]
    exact ⟨hisfor.tenantId, hisfor.aggregateId⟩
  dsimp only
  rw [hhead]
  refine careful_mono ?_ (careful_appendFenced htenant hrenewed' hlease hall)
  intro v reply _
  exact careful_check (raisesOnly_orRaise fun _ => rfl) fun _ _ =>
    careful_ofExcept (WorkLeaseFields.noConflict_make _) fun _ _ => trivial

/-- A call of the gateway, after its own checks. -/
theorem careful_record {py : PyText} {request : ModelRequest} {reservation : BudgetReservation}
    {at' : Timestamp} {ids : ℕ → UUID} {values : List (DomainEventType × Dict)}
    {mutation : Mutation} {u : Unit} (hvalid : Gateway.validate context request lease = .ok u)
    (hlease : h.Owns lease) (hmakes : h.Makes mutation) :
    h.Careful (fun _ _ => True) v
      (Gateway.record py context request lease reservation at' ids values mutation) := by
  obtain ⟨hcontext, htenant, -⟩ := Gateway.validate_eq_ok hvalid
  refine careful_check (Gateway.noConflict_events _ _ _ _ _ _ _ _) fun batch hbatch => ?_
  have hall : AllOf h.key batch := by
    intro e he
    obtain ⟨value, -, hisfor⟩ := Gateway.events_isFor htenant hbatch e he
    rw [← hlease.1]
    exact ⟨hisfor.tenantId, hisfor.aggregateId⟩
  have hcontext' : context.tenantId = h.key.1 := by
    rw [← hlease.1, hcontext, htenant]
    rfl
  intro w
  have hhead : w.db.version context.tenantId lease.workId.str = h.head w := by
    rw [head, hcontext', ← hlease.1]
    rfl
  dsimp only
  rw [hhead]
  exact careful_bind (p := appendFenced context batch (h.head w) lease mutation)
    (careful_mono (fun _ _ _ => trivial) (careful_appendFenced hcontext' hlease hmakes hall))

end Holder

/-- The context and the lease of a heartbeat or a gateway call. -/
def Call.leased? : Call → Option (TenantContext × WorkLease)
  | heartbeat context _ lease .. | reserve context _ lease .. | recordAttempt context _ lease .. |
    recordAttemptFailure context _ lease .. | modelSucceed context _ lease .. |
    recordUsageFailure context _ lease .. | modelFail context _ lease .. => some (context, lease)
  | _ => none

/-- Every heartbeat and every gateway call under the holder's lease follows the
rule. -/
theorem Call.careful {h : Holder} {v : ℕ} {c : Call} {context : TenantContext} {lease : WorkLease}
    (py : PyText) (hc : c.leased? = some (context, lease)) (htenant : context.tenantId = h.key.1)
    (hlease : h.Owns lease) : h.Careful (fun _ _ => True) v (c.proc py) := by
  have hdone : ∀ {α : Type} {p : Op α} {o : α → Outcome}, h.Careful (fun _ _ => True) v p →
      h.Careful (fun _ _ => True) v (p >>= fun a => pure (o a)) := fun hp =>
    Holder.careful_bind (Holder.careful_mono (fun _ _ _ => trivial) hp)
  cases c with
  | heartbeat =>
    cases hc
    exact hdone (Holder.careful_heartbeat py htenant hlease _ _ _ _)
  | reserve =>
    cases hc
    refine hdone (Holder.careful_check (Gateway.noConflict_validate _ _ _) fun _ hvalid => ?_)
    exact Holder.careful_bind (Holder.careful_mono (fun _ _ _ => trivial)
      (Holder.careful_record hvalid hlease trivial))
  | recordAttempt =>
    cases hc
    exact hdone (Holder.careful_check (Gateway.noConflict_validate _ _ _) fun _ hvalid =>
      Holder.careful_record hvalid hlease trivial)
  | recordAttemptFailure =>
    cases hc
    exact hdone (Holder.careful_check (Gateway.noConflict_validate _ _ _) fun _ hvalid =>
      Holder.careful_record hvalid hlease trivial)
  | modelSucceed =>
    cases hc
    exact hdone (Holder.careful_check (Gateway.noConflict_validate _ _ _) fun _ hvalid =>
      Holder.careful_check (noConflict_actualUsage _ _ _) fun _ _ =>
        Holder.careful_record hvalid hlease trivial)
  | recordUsageFailure =>
    cases hc
    exact hdone (Holder.careful_check (Gateway.noConflict_validate _ _ _) fun _ hvalid =>
      Holder.careful_record hvalid hlease trivial)
  | modelFail =>
    cases hc
    exact hdone (Holder.careful_check (Gateway.noConflict_validate _ _ _) fun _ hvalid =>
      Holder.careful_record hvalid hlease trivial)
  | _ => cases hc

/-! ## The holder's calls in a run -/

/-- The calls numbered by `mine` are the holder's heartbeats and gateway calls on its
item; the others are anyone's. -/
def HolderCalls (py : PyText) (h : Holder) (mine : ℕ → Prop) (s : Platform) (p : Op Outcome) :
    Prop :=
  (mine s.procs.length ∧ ∃ c : Call, ∃ context lease, c.leased? = some (context, lease) ∧
    context.tenantId = h.key.1 ∧ h.Owns lease ∧ p = c.proc py) ∨
  (¬ mine s.procs.length ∧ AnyCall py s p)

/-- The holder is left alone: whenever one of its transactions runs, the lease has
not run out and a reservation it settles is active under the lease; and the
transactions of others leave the lease and the head of the stream as they are. -/
def Undisturbed (h : Holder) (mine : ℕ → Prop) (s : Platform) : Action Txn → Prop
  | .commit i c =>
    (mine i → h.Lives s.store ∧ ∀ tx a m, c = .closeFenced tx a → a.mutation = .gateway m →
      m.Settleable s.store.db) ∧
    (¬ mine i → ∀ w r, World.exec c s.store = some (w, r) →
      w.db.workLeases.lookup h.key = s.store.db.workLeases.lookup h.key ∧
      h.head w = h.head s.store)
  | _ => True

/-- No append of the holder commits while another of its calls has read the head of
the stream and has not appended yet. -/
def OneAtATime (mine : ℕ → Prop) (s : Platform) : Action Txn → Prop
  | .commit i (.closeFenced tx a) => mine i → ∀ w reply,
    World.exec (.closeFenced tx a) s.store = some (w, .ok reply) →
    ∀ j, mine j → j ≠ i → ∀ c next, s.procs[j]? ≠ some (.commit c next)
  | _ => True

namespace Holder

variable {h : Holder} {mine : ℕ → Prop} {py : PyText} {s u : Platform} {w w' : World}

/-- The holder's check passes while the lease lives. -/
theorem openFenced_ok {r : Except Raised Reply} (hheld : h.Holds w) (hlives : h.Lives w)
    (hexec : World.exec (.openFenced h.fence) w = some (w', r)) :
    w'.db = w.db ∧ ∃ reply, r = .ok reply := by
  obtain ⟨row, hrow, hholds, -⟩ := hheld
  have hpasses : (w.db.workLeases.lookup h.fence.key).any (fun row =>
      row.holds h.fence.token h.fence.generation && w.clock < row.expiresAt) = true := by
    rw [show h.fence.key = h.key from rfl, hrow]
    exact Bool.and_eq_true_iff.2 ⟨hholds, decide_eq_true (hlives row hrow)⟩
  simp only [World.exec, World.openFenced, hpasses, if_true] at hexec
  split at hexec
  · cases hexec
  · cases hexec
    exact ⟨rfl, _, rfl⟩

/-- The holder renews its lease, and keeps it. -/
theorem renewLease_ok {db : Database} {lease : WorkLease} {now : Timestamp} {row : WorkLeaseRow}
    (extension : ℤ) (hrow : db.workLeases.lookup h.key = some row)
    (hholds : row.holds h.token h.generation = true) (howner : row.owner = h.owner)
    (hlive : now < row.expiresAt) (hlease : h.Owns lease) :
    db.renewLease lease extension now = .ok { db with
      workLeases := db.workLeases.upsert h.key { row with
        heartbeatAt := now
        expiresAt := now + extension } } := by
  obtain ⟨hkey, htoken, hgen, hown⟩ := hlease
  have hupdate : db.workLeases.updateWhere lease.key
      (fun row => row.holds lease.token lease.generation && row.owner = lease.owner &&
        now < row.expiresAt)
      (fun row => { row with heartbeatAt := now, expiresAt := now + extension }) =
      some (db.workLeases.upsert h.key { row with
        heartbeatAt := now
        expiresAt := now + extension }) := by
    rw [Table.updateWhere_eq_some, hkey, htoken, hgen, hown]
    exact ⟨row, hrow, by simp [hholds, howner, hlive], rfl⟩
  rw [Database.renewLease, hupdate]
  rfl

/-- **An append of the holder at the head of the stream conflicts with nothing**, and
leaves it its lease. -/
theorem runAppend_ok {a : Append} (startedAt : Timestamp) (hheld : h.Holds w)
    (hlives : h.Lives w) (hversion : a.expectedVersion = h.head w) (hall : AllOf h.key a.events)
    (hmakes : h.Makes a.mutation)
    (hsettle : ∀ m, a.mutation = .gateway m → m.Settleable w.db) :
    RaisesOnly Raised.NoConflict (w.runAppend a startedAt) ∧
    ∀ db' reply, w.runAppend a startedAt = .ok (db', reply) →
      ∃ row, db'.workLeases.lookup h.key = some row ∧ row.holds h.token h.generation = true ∧
        row.owner = h.owner := by
  obtain ⟨row, hrow, hholds, howner⟩ := hheld
  have hlive := hlives row hrow
  constructor
  · -- what comes before the mutation touches neither leases nor reservations
    have hmutate : ∀ db : Database, db.workLeases = w.db.workLeases →
        db.reservations = w.db.reservations → RaisesOnly Raised.NoConflict
          (a.mutation.run w.clock (fun tenantId => tenantId ∈ w.maintenance) db) := by
      intro db hleases hreservations
      cases hmutation : a.mutation with
      | none => exact raisesOnly_ok _
      | gateway m =>
        refine GatewayMutation.noConflict_run ?_
        unfold GatewayMutation.Settleable
        rw [hreservations]
        exact hsettle m hmutation
      | work m =>
        rw [hmutation] at hmakes
        cases m with
        | renewLease lease extension =>
          have hrow₁ : db.workLeases.lookup h.key = some row := by rw [hleases]; exact hrow
          rw [Mutation.run, WorkMutation.run, renewLease_ok _ hrow₁ hholds howner hlive hmakes]
          exact raisesOnly_ok _
        | _ => exact hmakes.elim
    refine raisesOnly_bind (Database.noConflict_appendInTransaction hall hversion.symm)
      fun result hresult => raisesOnly_bind (hmutate _ ?_ ?_) fun _ _ => raisesOnly_ok _
    all_goals
      obtain ⟨first, -, -, -, hdb₁, -⟩ := Database.appendInTransaction_spec hresult
      split <;> rw [hdb₁]
  · intro db' reply hrun
    obtain ⟨es, db₁, happ, hmut, -⟩ := World.runAppend_eq_ok hrun hall
    have hrow₁ : db₁.workLeases.lookup h.key = some row := by
      rw [happ.rest]
      exact hrow
    cases hmutation : a.mutation with
    | none =>
      rw [hmutation] at hmut
      cases hmut
      exact ⟨row, hrow₁, hholds, howner⟩
    | gateway m =>
      rw [hmutation] at hmut
      rw [GatewayMutation.run_rest hmut]
      exact ⟨row, hrow₁, hholds, howner⟩
    | work m =>
      rw [hmutation] at hmut hmakes
      cases m with
      | renewLease lease extension =>
        have hrenewed := renewLease_ok extension hrow₁ hholds howner hlive hmakes
        rw [show db' = _ from Except.ok.inj (hmut.symm.trans hrenewed)]
        exact ⟨_, Table.lookup_upsert_self .., hholds, howner⟩
      | _ => exact hmakes.elim

/-- The lease is held, and every call of the holder follows the rule. -/
structure Calm (h : Holder) (mine : ℕ → Prop) (s : Platform) : Prop where
  held : h.Holds s.store
  careful : ∀ i p, mine i → s.procs[i]? = some p → h.Careful (fun _ _ => True) (h.head s.store) p

/-- **A step of a run keeps the holder calm.** -/
theorem Calm.step {a : Action Txn} (hs : h.Calm mine s)
    (hstep : Step postgres (HolderCalls py h mine) s a u) (hleft : Undisturbed h mine s a)
    (hone : OneAtATime mine s a) : h.Calm mine u := by
  -- where the tables stay as they are, only the call that moves has to be looked at
  have hmoved : ∀ {w : World} {i : ℕ} {q : Op Outcome}, h.Holds w → h.head w = h.head s.store →
      (mine i → h.Careful (fun _ _ => True) (h.head w) q) →
      h.Calm mine ⟨w, s.procs.set i q⟩ := by
    intro w i q hheld hhead hq
    refine ⟨hheld, fun j p hj hp => ?_⟩
    dsimp only at hp ⊢
    rw [List.getElem?_set] at hp
    split at hp
    · rename_i hij
      subst hij
      split at hp
      · cases hp
        exact hq hj
      · cases hp
    · rw [hhead]
      exact hs.careful j p hj hp
  have hsame : ∀ {w : World}, w.db = s.store.db → h.Holds w ∧ h.head w = h.head s.store := by
    intro w hdb
    unfold Holds head
    rw [hdb]
    exact ⟨hs.held, rfl⟩
  cases hstep with
  | @call p hp =>
    refine ⟨hs.held, fun i q hi hq => ?_⟩
    dsimp only at hq ⊢
    rcases lt_trichotomy i s.procs.length with hlt | rfl | hgt
    · rw [List.getElem?_append_left hlt] at hq
      exact hs.careful i q hi hq
    · rw [List.getElem?_concat_length] at hq
      cases hq
      rcases hp with ⟨-, c, context, lease, hc, htenant, hlease, rfl⟩ | ⟨hne, -⟩
      · exact Call.careful py hc htenant hlease
      · exact absurd hi hne
    · rw [List.getElem?_eq_none (by rw [List.length_append, List.length_singleton]; omega)] at hq
      cases hq
  | @read i next hi =>
    exact hmoved hs.held rfl fun hmine => hs.careful i _ hmine hi s.store
  | @commit i c next t r hi hexec =>
    by_cases hmine : mine i
    · obtain ⟨hlives, hsettle⟩ := hleft.1 hmine
      obtain ⟨hpresents, hnext⟩ := hs.careful i _ hmine hi
      cases c with
      | openFenced f =>
        obtain rfl : f = h.fence := hpresents
        obtain ⟨hdb, reply, rfl⟩ := openFenced_ok hs.held hlives hexec
        obtain ⟨hheld, hhead⟩ := hsame hdb
        exact hmoved hheld hhead fun _ => hnext _ (raisesOnly_ok _) _ fun _ => hhead
      | closeFenced tx a =>
        obtain ⟨hversion, hall, hmakes⟩ := hpresents
        rcases World.exec_closeFenced hexec with
          ⟨-, rfl, rfl⟩ | ⟨x, -, ⟨e, hrun, rfl, rfl⟩ | ⟨db', reply, hrun, rfl, rfl⟩⟩
        · have hnone : Raised.NoConflict .transientStorageError := rfl
          exact hmoved hs.held rfl fun _ => hnext _ (raisesOnly_error hnone) _ fun _ => rfl
        · have hok := runAppend_ok x.startedAt hs.held hlives hversion hall hmakes
            fun m => hsettle tx a m rfl
          exact hmoved hs.held rfl fun _ =>
            hnext _ (raisesOnly_error (hok.1 e hrun)) _ fun _ => rfl
        · -- the head moves, and no other call of the holder is past its read
          have hok := runAppend_ok x.startedAt hs.held hlives hversion hall hmakes
            fun m => hsettle tx a m rfl
          refine ⟨hok.2 db' reply hrun, fun j p hj hp => ?_⟩
          dsimp only at hp
          rw [List.getElem?_set] at hp
          split at hp
          · split at hp
            · cases hp
              exact hnext _ (raisesOnly_ok _) _ fun h => (by cases h)
            · cases hp
          · rename_i hij
            refine careful_of_not_commit (hs.careful j p hj hp) (fun c next heq => ?_) _
            exact hone hmine _ reply hexec j hj (Ne.symm hij) c next (heq ▸ hp)
      | _ => exact hpresents.elim
    · obtain ⟨hleases, hhead⟩ := hleft.2 hmine t r hexec
      refine hmoved ?_ hhead fun h => absurd h hmine
      unfold Holds
      rw [hleases]
      exact hs.held
  | @abort i c next hi =>
    obtain ⟨hdb, -, -, hr, -⟩ := World.abort_cases c s.store
    obtain ⟨hheld, hhead⟩ := hsame hdb
    refine hmoved hheld hhead fun hmine => ?_
    refine (hs.careful i _ hmine hi).2 _ ?_ _ fun _ => hhead
    change RaisesOnly Raised.NoConflict (World.abort c s.store).2
    rw [hr]
    exact raisesOnly_error rfl
  | @tick t ht =>
    obtain ⟨clock, maintenance, locked, -, rfl⟩ := ht
    exact ⟨hs.held, hs.careful⟩

end Holder

/-! ## The theorem -/

/-- **A live lease holder never defeats itself**, in every run in which no append of
it commits while another of its calls is past its read: its heartbeats and model
calls do not end in a `ConcurrencyError`. -/
theorem holder_undefeated {py : PyText} {h : Holder} {mine : ℕ → Prop} {s₀ s : Platform}
    (hheld : h.Holds s₀.store) (hnew : ∀ i, mine i → s₀.procs.length ≤ i)
    (hrun : Run postgres (HolderCalls py h mine)
      (fun s a => Undisturbed h mine s a ∧ OneAtATime mine s a) s₀ s) :
    ∀ i e, mine i → s.procs[i]? = some (.raise e) → e.isConcurrencyError = false := by
  have hcalm : h.Calm mine s := by
    induction hrun with
    | refl =>
      refine ⟨hheld, fun i p hi hp => ?_⟩
      rw [List.getElem?_eq_none (hnew i hi)] at hp
      cases hp
    | tail _ hstep hm ih => exact ih.step hstep hm.1 hm.2
  exact fun i e hi hp => hcalm.careful i _ hi hp

/-- The sample worker. -/
def sampleHolder : Holder := ⟨sampleRequest.key, UUID.ofNat 20, 1, "worker"⟩

/-- The test of a schedule in which the sample worker is left alone. -/
def undisturbedTest (s : Platform) : Action Txn → Bool
  | .commit _ c => sampleHolder.Lives s.store && match c with
    | .closeFenced _ a => match a.mutation with
      | .gateway m => m.Settleable s.store.db
      | _ => true
    | _ => true
  | _ => true

theorem undisturbed_of_test (s : Platform) (a : Action Txn) (h : undisturbedTest s a = true) :
    Undisturbed sampleHolder (fun _ => True) s a := by
  cases a with
  | commit i c =>
    obtain ⟨hlives, hrest⟩ := Bool.and_eq_true_iff.1 h
    refine ⟨fun _ => ⟨of_decide_eq_true hlives, fun tx a m hc hm => ?_⟩,
      fun hne => absurd trivial hne⟩
    subst hc
    dsimp only at hrest
    rw [hm] at hrest
    exact of_decide_eq_true hrest
  | _ => trivial

/-- Is the call past its read? -/
def pastRead : Op Outcome → Bool
  | .commit .. => true
  | _ => false

/-- The test of a schedule in which, besides, the worker does one thing at a time. -/
def oneAtATimeTest (s : Platform) (a : Action Txn) : Bool :=
  undisturbedTest s a && match a with
    | .commit i (.closeFenced ..) =>
      (List.range s.procs.length).all fun j => j == i || !(s.procs[j]?.any pastRead)
    | _ => true

theorem oneAtATime_of_test (s : Platform) (a : Action Txn) (h : oneAtATimeTest s a = true) :
    Undisturbed sampleHolder (fun _ => True) s a ∧ OneAtATime (fun _ => True) s a := by
  obtain ⟨hleft, hone⟩ := Bool.and_eq_true_iff.1 h
  refine ⟨undisturbed_of_test s a hleft, ?_⟩
  cases a with
  | commit i c =>
    cases c with
    | closeFenced tx a =>
      intro _ w reply _ j _ hji c next hj
      have hlt : j < s.procs.length := (List.getElem?_eq_some_iff.1 hj).1
      have hall := List.all_eq_true.1 hone j (List.mem_range.2 hlt)
      rw [hj] at hall
      simp [hji, pastRead] at hall
    | _ => trivial
  | _ => trivial

/-- A decision that makes no call but the sample worker's. -/
def Scheduled.IsOwn : Scheduled → Prop
  | call c => c.leased? = some (sampleContext, sampleLease)
  | _ => True

theorem Scheduled.isOwn_whole {i : ℕ} {c : Call}
    (hc : c.leased? = some (sampleContext, sampleLease)) : ∀ x ∈ whole i c, x.IsOwn := by
  intro x hx
  rcases List.mem_cons.1 hx with rfl | hx
  · exact hc
  · rw [List.eq_of_mem_replicate hx]
    trivial

/-- A schedule of the worker's calls is a run of them. -/
theorem exists_run_holder {Meets : Platform → Action Txn → Prop}
    {test : Platform → Action Txn → Bool} {s : Platform} (cs : List Scheduled)
    (p : Platform → Bool) (hcs : ∀ x ∈ cs, x.IsOwn)
    (htest : ∀ s a, test s a = true → Meets s a)
    (hdrive : (Sys.drive postgres test (cs.map (Scheduled.choice sampleText)) s).any p = true) :
    ∃ u, Run postgres (HolderCalls sampleText sampleHolder fun _ => True) Meets s u ∧
      p u = true := by
  refine Sys.exists_run hdrive (fun c hc => ?_) htest
  obtain ⟨x, hx, rfl⟩ := List.mem_map.1 hc
  cases x with
  | call c =>
    exact fun _ => Or.inl ⟨trivial, c, _, _, hcs _ hx, rfl, ⟨rfl, rfl, rfl, rfl⟩, rfl⟩
  | go i => trivial
  | wait duration => exact tick_wait duration

/-- A heartbeat of the sample worker. -/
def sampleHeartbeat : Call :=
  .heartbeat sampleContext sampleDelivery sampleLease 0 (seconds 60) (sampleIds 80)

/-- Follow a schedule of the worker's calls from the state in which the sample item
has just been started. -/
theorem exists_holder_run {Meets : Platform → Action Txn → Prop}
    {test : Platform → Action Txn → Bool} (cs : List Scheduled) (p : Platform → Bool)
    (hcs : ∀ x ∈ cs, x.IsOwn)
    (htest : ∀ s a, test s a = true → Meets s a)
    (hdrive : (Sys.drive postgres anyTest (startedSchedule.map (Scheduled.choice sampleText))
      budgetPlatform).any (fun u =>
        ((u.store.db.workLeases.lookup sampleHolder.key).any fun row =>
          row.holds sampleHolder.token sampleHolder.generation && row.owner = sampleHolder.owner) &&
        (Sys.drive postgres test (cs.map (Scheduled.choice sampleText)) ⟨u.store, []⟩).any p) =
      true) :
    ∃ u s, Run postgres (AnyCall sampleText) (fun _ _ => True) budgetPlatform u ∧
      sampleHolder.Holds u.store ∧
      Run postgres (HolderCalls sampleText sampleHolder fun _ => True) Meets ⟨u.store, []⟩ s ∧
      p s = true := by
  obtain ⟨u, hrun, hready⟩ := exists_run_any (s := budgetPlatform) sampleText startedSchedule _
    meets_of_anyTest hdrive
  obtain ⟨hheld, hrest⟩ := Bool.and_eq_true_iff.1 hready
  obtain ⟨row, hrow, hp⟩ := (Option.any_eq_true _ _).1 hheld
  obtain ⟨hholds, howner⟩ := Bool.and_eq_true_iff.1 hp
  obtain ⟨s, hrun', hs⟩ := exists_run_holder cs p hcs htest hrest
  exact ⟨u, s, hrun, ⟨row, hrow, hholds, of_decide_eq_true howner⟩, hrun', hs⟩

/-- Has the call returned? -/
def hasReturned : Op Outcome → Bool
  | .ret _ => true
  | _ => false

/-- A heartbeat and then a model call, one after the other: both return. -/
theorem holder_undefeated_in_turn : ∃ u s : Platform,
    Run postgres (AnyCall sampleText) (fun _ _ => True) budgetPlatform u ∧
    Run postgres (HolderCalls sampleText sampleHolder fun _ => True)
      (fun s a => Undisturbed sampleHolder (fun _ => True) s a ∧ OneAtATime (fun _ => True) s a)
      ⟨u.store, []⟩ s ∧
    (s.procs.length = 2 ∧ s.procs.all hasReturned = true) ∧
    ∀ (i : ℕ) (e : Raised), True → s.procs[i]? = some (.raise e) → e.isConcurrencyError = false := by
  obtain ⟨u, s, hrun, hheld, hrun', hs⟩ := exists_holder_run
    (Scheduled.whole 0 sampleHeartbeat ++ Scheduled.whole 1 sampleReserve)
    (fun s => s.procs.length = 2 && s.procs.all hasReturned)
    (List.forall_mem_append.2 ⟨Scheduled.isOwn_whole rfl, Scheduled.isOwn_whole rfl⟩)
    oneAtATime_of_test (by decide +kernel)
  rw [Bool.and_eq_true, decide_eq_true_eq] at hs
  have hheld' : sampleHolder.Holds (⟨u.store, []⟩ : Platform).store := hheld
  exact ⟨u, s, hrun, hrun', hs, holder_undefeated hheld' (fun _ _ => Nat.zero_le _) hrun'⟩

/-- Has the first operation raised a `ConcurrencyError`? -/
def firstDefeated (s : Platform) : Bool :=
  match (s.procs[0]? : Option (Op Outcome)) with
  | some (.raise e) => e.isConcurrencyError
  | _ => false

/-- A model call has read the head of the stream when a heartbeat of the same worker
commits: the call is lost to a `ConcurrencyError`. -/
theorem holder_defeats_itself : ∃ u s : Platform,
    Run postgres (AnyCall sampleText) (fun _ _ => True) budgetPlatform u ∧
    sampleHolder.Holds u.store ∧
    Run postgres (HolderCalls sampleText sampleHolder fun _ => True)
      (Undisturbed sampleHolder fun _ => True) ⟨u.store, []⟩ s ∧
    ∃ e, s.procs[0]? = some (.raise e) ∧ e.isConcurrencyError = true := by
  obtain ⟨u, s, hrun, hheld, hrun', hs⟩ := exists_holder_run
    ([.call sampleReserve, .go 0] ++ Scheduled.whole 1 sampleHeartbeat ++ [.go 0, .go 0])
    firstDefeated
    (by
      simp only [List.forall_mem_append, List.forall_mem_cons, List.not_mem_nil, false_implies,
        implies_true, and_true]
      exact ⟨⟨⟨rfl, trivial⟩, Scheduled.isOwn_whole rfl⟩, trivial, trivial⟩)
    undisturbed_of_test (by decide +kernel)
  refine ⟨u, s, hrun, hheld, hrun', ?_⟩
  unfold firstDefeated at hs
  split at hs
  · rename_i e he
    exact ⟨e, he, hs⟩
  · cases hs

end AegisPlatform
