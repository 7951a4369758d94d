import AegisPlatform.Runtime.Supervisor

/-!
# What the supervisor guarantees

* `acknowledged_durable` — a delivery is acknowledged only after its outcome is
  durable, at most once, and never after it was quarantined.
-/

namespace AegisPlatform

open Effects

variable {settings : WorkerSettings} {tenant : TenantContext} {delivery : QueueDelivery}
  {lease : WorkLease} {h : WorkerHistory}

/-! ## Reading a history -/

/-- Does the call put the delivery out of the queue: `acknowledge` or `quarantine`? -/
def WorkerCall.isQueue : WorkerCall → Bool
  | acknowledge _ | quarantine .. => true
  | _ => false

/-- `delivery_complete` has answered that the work item is over. -/
def Completes (workId : UUID) : Answered WorkerCall WorkerCall.Reply Thrown → Prop
  | ⟨.deliveryComplete _ id, .ok complete⟩ => id = workId ∧ complete = true
  | _ => False

/-- `claim` has returned the lease. -/
def Claims (delivery : QueueDelivery) (lease : WorkLease) :
    Answered WorkerCall WorkerCall.Reply Thrown → Prop
  | ⟨.claim _ d _ _ _ _, .ok claimed⟩ => d = delivery ∧ claimed = some lease
  | _ => False

/-- `succeed`, `cancel` or `fail` has returned for the lease. -/
def Settles (lease : WorkLease) : Answered WorkerCall WorkerCall.Reply Thrown → Prop
  | ⟨.succeed _ _ held _ _, .ok _⟩ | ⟨.cancel _ _ held _, .ok _⟩ | ⟨.fail _ _ held _ _ _ _, .ok _⟩ =>
    held = lease
  | _ => False

/-- The outcome of the delivery's work is durable: the item was over, or the lease that
was claimed for it has been settled since. -/
def Durable (delivery : QueueDelivery) (h : WorkerHistory) : Prop :=
  (∃ x ∈ h, Completes delivery.envelope.workId x) ∨
  ∃ before x after lease, h = before ++ x :: after ∧ Claims delivery lease x ∧
    ∃ y ∈ after, Settles lease y

/-- Queue calls are made on a durable outcome, or to quarantine, and only once. -/
def QueueRule (delivery : QueueDelivery) (h : WorkerHistory) (c : WorkerCall) : Prop :=
  (c.isQueue = true → ∀ x ∈ h, x.1.isQueue = false) ∧
  ∀ d, c = .acknowledge d → d = delivery ∧ Durable delivery h

theorem queueRule_other {c : WorkerCall} (hc : c.isQueue = false) : QueueRule delivery h c := by
  refine ⟨fun hq => ?_, ?_⟩
  · rw [hc] at hq
    cases hq
  · rintro d rfl
    cases hc

/-! ## Recording an outcome -/

/-- No queue call was made since `h`, and `true` means that the lease has been settled
since. -/
def Recorded (lease : WorkLease) (h : WorkerHistory) (o : Except Thrown Bool)
    (t : WorkerHistory) : Prop :=
  ∃ since, t = h ++ since ∧ (∀ x ∈ since, x.1.isQueue = false) ∧
    (o = .ok true → ∃ y ∈ since, Settles lease y)

/-- The rule for programs that touch the queue by the rule, whatever is answered. -/
abbrev QueueLawful (delivery : QueueDelivery) {α : Type}
    (Q : Except Thrown α → WorkerHistory → Prop) (p : Worker α) (h : WorkerHistory) : Prop :=
  p.wp (fun _ _ => True) (QueueRule delivery) Q h

theorem recorded_refl (lease : WorkLease) (h : WorkerHistory) {o : Except Thrown Bool}
    (ho : o ≠ .ok true) : Recorded lease h o h :=
  ⟨[], (List.append_nil h).symm, fun _ hx => (by cases hx), fun h => absurd h ho⟩

/-- What was recorded since a later moment was recorded since. -/
theorem Recorded.trans {o o' : Except Thrown Bool} {t u : WorkerHistory}
    (ht : Recorded lease h o t) (hu : Recorded lease t o' u) : Recorded lease h o' u := by
  obtain ⟨since, rfl, hqueue, -⟩ := ht
  obtain ⟨later, rfl, hqueue', hsettles⟩ := hu
  refine ⟨since ++ later, List.append_assoc .., fun x hx => ?_, fun ho => ?_⟩
  · rcases List.mem_append.1 hx with hx | hx
    · exact hqueue x hx
    · exact hqueue' x hx
  · obtain ⟨y, hy, hyl⟩ := hsettles ho
    exact ⟨y, List.mem_append_right _ hy, hyl⟩

theorem recorded_settles {o : Except Thrown Bool}
    {x : Answered WorkerCall WorkerCall.Reply Thrown} (hx : x.1.isQueue = false)
    (hsettles : o = .ok true → Settles lease x) : Recorded lease h o (h ++ [x]) :=
  ⟨[x], rfl, fun y hy => by rw [List.mem_singleton.1 hy]; exact hx,
    fun ho => ⟨x, List.mem_singleton.2 rfl, hsettles ho⟩⟩

/-- The rule for a call that is none of the queue's, and what follows it. -/
theorem recorded_ask {c : WorkerCall} {f : c.Reply → Worker Bool} (hc : c.isQueue = false)
    (hf : ∀ a, QueueLawful delivery (Recorded lease (h ++ [⟨c, .ok a⟩])) (f a)
      (h ++ [⟨c, .ok a⟩])) :
    QueueLawful delivery (Recorded lease h) (Worker.ask c >>= f) h := by
  refine Prog.wp_ask_bind (queueRule_other hc) (fun e _ => ?_) fun a _ => ?_
  · exact recorded_settles hc fun h => (by cases h)
  · have hcall : Recorded lease h (.ok false) (h ++ [⟨c, .ok a⟩]) :=
      recorded_settles hc fun h => (by cases h)
    exact Prog.wp_mono (fun _ _ ht => hcall.trans ht) _ (hf a)

theorem recordCancel_recorded :
    QueueLawful delivery (Recorded lease h) (recordCancel tenant delivery lease) h := by
  refine recorded_ask rfl fun at' => ?_
  refine Prog.wp_ask_bind (queueRule_other rfl) (fun e _ => ?_) fun a _ => ?_
  · exact recorded_settles rfl fun h => (by cases h)
  · exact recorded_settles rfl fun _ => rfl

theorem recordFailure_recorded {failureClass : FailureClass} {errorCode : String} :
    QueueLawful delivery (Recorded lease h)
      (recordFailure settings tenant delivery lease failureClass errorCode) h := by
  have hrest : ∀ (h : WorkerHistory) (retryAt : Option Timestamp),
      QueueLawful delivery (Recorded lease h) (do
        let at' ← Worker.clock
        tryCatch (do
            let _terminal ← Worker.ask
              (.fail tenant delivery lease at' failureClass errorCode retryAt)
            pure true)
          fun e => if e.isFencingError then pure false else throw e) h := by
    intro h retryAt
    refine recorded_ask rfl fun at' => Prog.wp_handle _ ?_
    refine Prog.wp_ask_bind (queueRule_other rfl) (fun e _ => ?_) fun a _ => ?_
    · dsimp only
      split
      · exact recorded_settles rfl fun h => (by cases h)
      · exact recorded_settles rfl fun h => (by cases h)
    · exact recorded_settles rfl fun _ => rfl
  unfold recordFailure
  dsimp only
  split
  · exact recorded_ask rfl fun now => hrest _ _
  · exact hrest h none

theorem attempt_recorded :
    QueueLawful delivery (Recorded lease h) (attempt tenant delivery lease) h := by
  refine recorded_ask rfl fun at' => recorded_ask rfl fun _ => recorded_ask rfl fun race => ?_
  refine Prog.wp_bind _ (Prog.wp_ofExcept ?_)
  cases Race.result delivery race with
  | error e => exact recorded_refl _ _ fun h => (by cases h)
  | ok result =>
    refine recorded_ask rfl fun requested => ?_
    cases requested with
    | true => exact recordCancel_recorded
    | false =>
      refine recorded_ask rfl fun at' => ?_
      refine Prog.wp_ask_bind (queueRule_other rfl) (fun e _ => ?_) fun a _ => ?_
      · exact recorded_settles rfl fun h => (by cases h)
      -- the clock is read once more, for the telemetry
      refine Prog.wp_ask_bind (queueRule_other rfl) (fun e _ => ?_) fun b _ => ?_
      · refine Recorded.trans (o := .ok false) (recorded_settles
          (x := ⟨.succeed tenant delivery lease at' result.resultReference, .ok a⟩) rfl ?_) ?_
        · exact fun h => (by cases h)
        · exact recorded_settles rfl fun h => (by cases h)
      · refine ⟨[⟨.succeed tenant delivery lease at' result.resultReference, .ok a⟩,
          ⟨.clock, .ok b⟩], List.append_assoc .., fun x hx => ?_, fun _ => ?_⟩
        · rcases List.mem_pair.1 hx with rfl | rfl <;> rfl
        · exact ⟨_, List.mem_cons_self .., rfl⟩

theorem handleFailure_recorded (e : Thrown) :
    QueueLawful delivery (Recorded lease h) (handleFailure settings tenant delivery lease e) h := by
  have hcancel : ∀ (h : WorkerHistory), QueueLawful delivery (Recorded lease h)
      (tryCatch (recordCancel tenant delivery lease)
        fun e => if e.isFencingError then pure false else throw e) h := by
    intro h
    refine Prog.wp_handle _ (Prog.wp_mono (fun o t ht => ?_) _ recordCancel_recorded)
    cases o with
    | ok b => exact ht
    | error e =>
      dsimp only
      split
      · exact ht.trans (recorded_refl _ _ fun h => (by cases h))
      · exact ht
  unfold handleFailure
  split
  · exact recordFailure_recorded
  · split
    · refine recorded_ask rfl fun requested => ?_
      cases requested with
      | true => exact recordCancel_recorded
      | false => exact recorded_refl _ _ fun h => (by cases h)
    · exact recordFailure_recorded
  · refine recorded_ask rfl fun requested => ?_
    cases requested with
    | true => exact hcancel _
    | false => exact recorded_refl _ _ fun h => (by cases h)
  · exact recorded_refl _ _ fun h => (by cases h)
  · exact recordFailure_recorded

theorem attempted_recorded :
    QueueLawful delivery (Recorded lease h) (tryCatch (attempt tenant delivery lease)
      (handleFailure settings tenant delivery lease)) h := by
  refine Prog.wp_handle _ (Prog.wp_mono (fun o t ht => ?_) _ attempt_recorded)
  cases o with
  | ok b => exact ht
  | error e => exact Prog.wp_mono (fun _ _ hu => ht.trans hu) _ (handleFailure_recorded e)

/-! ## The whole delivery -/

theorem no_queue_append {x : Answered WorkerCall WorkerCall.Reply Thrown}
    (hqueue : ∀ y ∈ h, y.1.isQueue = false) (hx : x.1.isQueue = false) :
    ∀ y ∈ h ++ [x], y.1.isQueue = false := by
  intro y hy
  rcases List.mem_append.1 hy with hy | hy
  · exact hqueue y hy
  · rw [List.mem_singleton.1 hy]
    exact hx

theorem durable_complete (tenant : TenantContext)
    (hx : ⟨.deliveryComplete tenant delivery.envelope.workId, .ok true⟩ ∈ h) :
    Durable delivery h :=
  Or.inl ⟨_, hx, rfl, rfl⟩

theorem acknowledge_lawful (hqueue : ∀ x ∈ h, x.1.isQueue = false)
    (hdurable : Durable delivery h) :
    QueueLawful delivery (fun _ _ => True) (Worker.ask (.acknowledge delivery)) h := by
  have hrule : QueueRule delivery h (.acknowledge delivery) := by
    refine ⟨fun _ => hqueue, fun d hd => ?_⟩
    cases hd
    exact ⟨rfl, hdurable⟩
  exact Prog.wp_ask hrule fun _ _ => trivial

/-- The rule for acknowledging a delivery whose work is over. -/
theorem acknowledgeComplete_lawful (hqueue : ∀ x ∈ h, x.1.isQueue = false) :
    QueueLawful delivery (fun _ _ => True) (acknowledgeComplete tenant delivery) h := by
  refine Prog.wp_ask_bind (queueRule_other rfl) (fun _ _ => trivial) fun complete _ => ?_
  cases complete with
  | false => trivial
  | true =>
    rw [if_pos rfl]
    refine acknowledge_lawful (no_queue_append hqueue rfl) (durable_complete tenant ?_)
    exact List.mem_append_right _ (List.mem_singleton.2 rfl)

/-- A claim that was answered left the queue alone, and a lease comes from its last
call. -/
def ClaimAnswered (delivery : QueueDelivery) (o : Except Thrown (Option (Option WorkLease)))
    (t : WorkerHistory) : Prop :=
  ∀ answer, o = .ok (some answer) → (∀ x ∈ t, x.1.isQueue = false) ∧
    ∀ lease, answer = some lease → ∃ before x, t = before ++ [x] ∧ Claims delivery lease x

theorem claimDelivery_lawful {startedAt : Timestamp} (hqueue : ∀ x ∈ h, x.1.isQueue = false) :
    QueueLawful delivery (ClaimAnswered delivery)
      (claimDelivery settings tenant delivery startedAt) h := by
  -- what the `except` clauses do, after a history without queue calls
  have hrefused : ∀ (e : Thrown) (h : WorkerHistory), (∀ x ∈ h, x.1.isQueue = false) →
      QueueLawful delivery (ClaimAnswered delivery)
        (if e.isValueError then do
          let _ ← Worker.ask (.quarantine delivery "authoritative_delivery_rejected")
          pure none
        else if e.isConcurrencyError then do
          acknowledgeComplete tenant delivery
          pure none
        else throw e) h := by
    intro e h hqueue
    split
    · exact Prog.wp_ask_bind ⟨fun _ => hqueue, fun d hd => (by cases hd)⟩
        (fun _ _ _ ho => (by cases ho)) fun _ _ _ ho => (by cases ho)
    · split
      · refine Prog.wp_bind _ (Prog.wp_mono (fun o t _ => ?_) _ (acknowledgeComplete_lawful hqueue))
        cases o <;> (intro _ ho; cases ho)
      · intro _ ho
        cases ho
  refine Prog.wp_handle _ ?_
  refine Prog.wp_ask_bind (queueRule_other rfl) (fun e _ => ?_) fun _ _ => ?_
  · exact hrefused e _ (no_queue_append hqueue rfl)
  refine Prog.wp_ask_bind (queueRule_other rfl) (fun e _ => ?_) fun quota _ => ?_
  · exact hrefused e _ (no_queue_append (no_queue_append hqueue rfl) rfl)
  refine Prog.wp_ask_bind (queueRule_other rfl) (fun e _ => ?_) fun claimed _ => ?_
  · exact hrefused e _ (no_queue_append (no_queue_append (no_queue_append hqueue rfl) rfl) rfl)
  intro answer hanswer
  cases hanswer
  refine ⟨no_queue_append (no_queue_append (no_queue_append hqueue rfl) rfl) rfl, ?_⟩
  rintro lease rfl
  exact ⟨_, _, rfl, rfl, rfl⟩

theorem process_lawful (settings : WorkerSettings) (delivery : QueueDelivery) :
    QueueLawful delivery (fun _ _ => True) (process settings delivery) [] := by
  unfold process
  split
  case isFalse =>
    have hrule : QueueRule delivery [] (.quarantine delivery "invalid_tenant_envelope") :=
      ⟨fun _ x hx => (by cases hx), fun d hd => (by cases hd)⟩
    exact Prog.wp_ask hrule fun _ _ => trivial
  case isTrue htenant =>
    refine Prog.wp_ask_bind (queueRule_other rfl) (fun _ _ => trivial) fun startedAt _ => ?_
    refine Prog.wp_ask_bind (queueRule_other rfl) (fun _ _ => trivial) fun complete _ => ?_
    have hqueue : ∀ x ∈ ([⟨.clock, .ok startedAt⟩,
        ⟨.deliveryComplete ⟨delivery.envelope.tenantId, htenant⟩ delivery.envelope.workId,
          .ok complete⟩] : WorkerHistory), x.1.isQueue = false := by
      intro x hx
      rcases List.mem_pair.1 hx with rfl | rfl <;> rfl
    cases complete with
    | true =>
      refine acknowledge_lawful hqueue (durable_complete ⟨_, htenant⟩ ?_)
      exact List.mem_cons_of_mem _ (List.mem_singleton_self _)
    | false =>
      refine Prog.wp_bind _ (Prog.wp_mono (fun o t ho => ?_) _ (claimDelivery_lawful hqueue))
      cases o with
      | error e => trivial
      | ok answer =>
        cases answer with
        | none => trivial
        | some answer =>
          obtain ⟨hqueue, hclaims⟩ := ho answer rfl
          cases answer with
          | none => exact acknowledgeComplete_lawful hqueue
          | some lease =>
            obtain ⟨before, x, rfl, hx⟩ := hclaims lease rfl
            refine Prog.wp_bind _ (Prog.wp_mono (fun o t ho => ?_) _ attempted_recorded)
            cases o with
            | error e => trivial
            | ok durable =>
              cases durable with
              | false => trivial
              | true =>
                obtain ⟨since, rfl, hsince, hsettles⟩ := ho
                refine acknowledge_lawful (fun y hy => ?_) (Or.inr ?_)
                · rcases List.mem_append.1 hy with hy | hy
                  · exact hqueue y hy
                  · exact hsince y hy
                · exact ⟨before, x, since, lease, List.append_assoc .., hx, hsettles rfl⟩

/-- **A delivery is acknowledged only after a durable outcome.**  Whatever store, queue,
quota and handler do, `_process` acknowledges nothing but its own delivery, after
`delivery_complete` answered true for its work item or the lease claimed for it was
settled, and after no other queue call. -/
theorem acknowledged_durable (env : Env WorkerCall WorkerCall.Reply Thrown)
    (settings : WorkerSettings) (delivery d : QueueDelivery) {before later : WorkerHistory}
    {answer : Except Thrown Unit}
    (hrun : ((process settings delivery).run env []).1 =
      before ++ ⟨.acknowledge d, answer⟩ :: later) :
    d = delivery ∧ Durable delivery before ∧ ∀ x ∈ before, x.1.isQueue = false := by
  obtain ⟨hqueue, hdurable⟩ :=
    Prog.run_calls (fun _ _ => trivial) (process_lawful settings delivery) hrun
  obtain ⟨hd, hdurable⟩ := hdurable d rfl
  exact ⟨hd, hdurable, hqueue rfl⟩

/-- The delivery of a work item. -/
def plainDelivery (workId : UUID) : QueueDelivery := ⟨{
  messageId := UUID.ofNat 4
  tenantId := "acme"
  workId := workId
  eventId := none
  destination := "aegis.work"
  correlationId := UUID.ofNat 2
  causationId := none
  occurredAt := 0
  payload := []
  valid := ⟨by decide, by decide⟩ }⟩

/-- The lease it is claimed with. -/
def plainLease (workId : UUID) : WorkLease := ⟨{
  workId := workId
  tenantId := "acme"
  token := UUID.ofNat 20
  generation := 1
  owner := "worker"
  attempt := 1
  acquiredAt := 0
  heartbeatAt := 0
  expiresAt := seconds 30 }, rfl⟩

/-- The settings of the worker. -/
def plainSettings : WorkerSettings where
  workerId := "worker"
  maxConcurrency := 16
  leaseDuration := seconds 30
  heartbeatInterval := seconds 10
  delay _ := seconds 1
  identified := by decide
  bounded := by decide
  renewed := by decide

/-- What a handler returns. -/
def plainResult : WorkResult := ⟨"artifact:result", by decide⟩

/-- An environment in which nothing but the handler and `fail` can go wrong. -/
def plainEnv (finished : Except Thrown WorkResult) (failed : Except Thrown Bool) :
    Env WorkerCall WorkerCall.Reply Thrown
  | _, .clock => .ok 0
  | _, .deliveryComplete .. | _, .cancellationRequested .. => .ok false
  | _, .fail .. => failed
  | _, .quota _ => .ok 1
  | _, .claim _ delivery .. => .ok (some (plainLease delivery.envelope.workId))
  | _, .execute .. => .ok ⟨[], some finished⟩
  | _, .acknowledge _ | _, .quarantine .. | _, .markPublished .. | _, .start .. | _, .succeed ..
  | _, .cancel .. => .ok ()

theorem acknowledged_durable_succeeded : ∃ before later,
    ((process plainSettings (plainDelivery (UUID.ofNat 1))).run
      (plainEnv (.ok plainResult) (.ok false)) []).1 =
      before ++ ⟨.acknowledge (plainDelivery (UUID.ofNat 1)), .ok ()⟩ :: later ∧
    Durable (plainDelivery (UUID.ofNat 1)) before ∧ ∀ x ∈ before, x.1.isQueue = false := by
  have hrun : ((process plainSettings (plainDelivery (UUID.ofNat 1))).run
      (plainEnv (.ok plainResult) (.ok false)) []).1 =
      ((process plainSettings (plainDelivery (UUID.ofNat 1))).run
        (plainEnv (.ok plainResult) (.ok false)) []).1.dropLast ++
        ⟨.acknowledge (plainDelivery (UUID.ofNat 1)), .ok ()⟩ :: [] := rfl
  exact ⟨_, _, hrun, (acknowledged_durable _ _ _ _ hrun).2⟩

end AegisPlatform
