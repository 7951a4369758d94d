import AegisPlatform.Runtime.Scheduler
import AegisPlatform.System.Supervision

/-!
# What the supervisor contains

Every exception the state store may raise at any call, and every way a handler may
end, is either handled by `_process` or leaves it.  Which of the two depends on the
`except` clause that is running when it comes.

* `escapes`, `contained` — the exceptions that get out, by the calls made before them.
* `process_returns` — `_process` returns exactly when nothing gets out.
* `batch_contained` — and then `run_batch` waits for every delivery and returns.
-/

namespace AegisPlatform

open Effects

variable {settings : WorkerSettings} {tenant : TenantContext} {delivery : QueueDelivery}
  {lease : WorkLease} {h t : WorkerHistory} {f : Option Thrown}

/-! ## Which exceptions get out -/

/-- Is the call one to the state store? -/
def WorkerCall.isState : WorkerCall → Bool
  | deliveryComplete .. | markPublished .. | claim .. | start .. | cancellationRequested ..
  | succeed .. | cancel .. | fail .. => true
  | clock | acknowledge _ | quarantine .. | quota _ | execute .. => false

/-- Is the call the race of the handler? -/
def WorkerCall.isExecute : WorkerCall → Bool
  | execute .. => true
  | _ => false

/-- The state store may raise a `ConcurrencyError` at any call, and nothing else raises;
how the race of the handler went is its answer. -/
def MayConflict (c : WorkerCall) : Except Thrown c.Reply → Prop
  | .ok _ => True
  | .error e => c.isState = true ∧ e.isConcurrencyError = true

/-- The exception an answered call ended with, where the handler's is that of its
race. -/
def failure (delivery : QueueDelivery) :
    Answered WorkerCall WorkerCall.Reply Thrown → Option Thrown
  | ⟨.execute .., .ok race⟩ =>
    match race.result delivery with
    | .ok _ => none
    | .error e => some e
  | ⟨_, .ok _⟩ => none
  | ⟨_, .error e⟩ => some e

/-- The exception that is being handled: the first one met. -/
def handling (delivery : QueueDelivery) (h : WorkerHistory) : Option Thrown :=
  h.findSome? (failure delivery)

/-- Does the answer to a call get out of `_process`, after the calls made before it? -/
def escapes (delivery : QueueDelivery) (before : WorkerHistory) :
    Answered WorkerCall WorkerCall.Reply Thrown → Bool
  | ⟨.deliveryComplete .., .error _⟩ => true
  | ⟨.fail .., .error e⟩ => !e.isFencingError
  -- a `try` protects these two, but not the `except` clauses of that `try`
  | ⟨.cancellationRequested .., .error _⟩ => (handling delivery before).isSome
  | ⟨.cancel .., .error e⟩ =>
    match handling delivery before with
    | none => false
    | some handled => !(handled.isFencingError && e.isFencingError)
  | ⟨.execute .., .ok race⟩ =>
    match race.result delivery with
    | .error .cancelledError => true
    | _ => false
  | _ => false

/-- Nothing gets out at any of the calls. -/
def contained (delivery : QueueDelivery) : WorkerHistory → WorkerHistory → Bool
  | _, [] => true
  | before, x :: rest =>
    !escapes delivery before x && contained delivery (before ++ [x]) rest

theorem contained_append {before : WorkerHistory} (h : WorkerHistory)
    {x : Answered WorkerCall WorkerCall.Reply Thrown} :
    contained delivery before (h ++ [x]) =
      (contained delivery before h && !escapes delivery (before ++ h) x) := by
  induction h generalizing before with
  | nil => simp [contained]
  | cons y rest ih => simp [contained, ih, Bool.and_assoc]

/-! ## The state of a delivery -/

/-- So far nothing got out, and `f` is being handled. -/
def Pending (delivery : QueueDelivery) (f : Option Thrown) (h : WorkerHistory) : Prop :=
  contained delivery [] h = true ∧ handling delivery h = f

/-- `_process`, or a part of it, returns exactly when nothing got out. -/
def Contains (delivery : QueueDelivery) {α : Type} (o : Except Thrown α) (h : WorkerHistory) :
    Prop :=
  (∃ a, o = .ok a) ↔ contained delivery [] h = true

theorem contains_ok {α : Type} {a : α} (h : Pending delivery f t) :
    Contains delivery (.ok a) t :=
  ⟨fun _ => h.1, fun _ => ⟨a, rfl⟩⟩

/-- The value that is returned makes no difference. -/
theorem Contains.returns {α β : Type} {a : α} (b : β) (h : Contains delivery (.ok a) t) :
    Contains delivery (.ok b) t :=
  ⟨fun _ => h.1 ⟨a, rfl⟩, fun _ => ⟨b, rfl⟩⟩

theorem Contains.raises {α β : Type} {e : Thrown}
    (h : Contains delivery (.error e : Except Thrown α) t) :
    Contains delivery (.error e : Except Thrown β) t := by
  refine ⟨fun ⟨_, ha⟩ => (by cases ha), fun hcontained => ?_⟩
  obtain ⟨a, ha⟩ := h.2 hcontained
  cases ha

theorem pending_append {x : Answered WorkerCall WorkerCall.Reply Thrown}
    (h : Pending delivery f t) (hx : escapes delivery t x = false) :
    Pending delivery (f.or (failure delivery x)) (t ++ [x]) := by
  refine ⟨?_, ?_⟩
  · rw [contained_append, h.1, List.nil_append, hx]
    rfl
  · unfold handling
    rw [List.findSome?_append, List.findSome?_singleton]
    exact congrArg (fun o => Option.or o (failure delivery x)) h.2

/-- An exception that gets out. -/
theorem contains_error {α : Type} {x : Answered WorkerCall WorkerCall.Reply Thrown} {e : Thrown}
    (hx : escapes delivery t x = true) :
    Contains delivery (.error e : Except Thrown α) (t ++ [x]) := by
  unfold Contains
  rw [contained_append, List.nil_append, hx]
  simp

/-- The rule for programs whose calls may meet a conflict. -/
abbrev Conflicting {α : Type} (Q : Except Thrown α → WorkerHistory → Prop) (p : Worker α)
    (h : WorkerHistory) : Prop :=
  p.wp MayConflict (fun _ _ => True) Q h

/-- An answer that is no exception changes nothing, unless it is the handler's. -/
theorem pending_ok {c : WorkerCall} (h : Pending delivery f t)
    (hc : c.isExecute = false) (a : c.Reply) :
    Pending delivery f (t ++ [⟨c, .ok a⟩]) := by
  have hx : escapes delivery t ⟨c, .ok a⟩ = false := by
    cases c with
    | execute => cases hc
    | _ => rfl
  have hfailure : failure delivery ⟨c, .ok a⟩ = none := by
    cases c with
    | execute => cases hc
    | _ => rfl
  have hnext := pending_append h hx
  rw [hfailure, Option.or_none] at hnext
  exact hnext

/-- An exception that is handled is being handled from then on. -/
theorem pending_error {c : WorkerCall} {e : Thrown} (h : Pending delivery none t)
    (hx : escapes delivery t ⟨c, .error e⟩ = false) :
    Pending delivery (some e) (t ++ [⟨c, .error e⟩]) := by
  have hfailure : failure delivery ⟨c, .error e⟩ = some e := by cases c <;> rfl
  have hnext := pending_append h hx
  rw [hfailure] at hnext
  exact hnext

/-- A call that cannot fail. -/
theorem conflicting_ask {α : Type} {Q : Except Thrown α → WorkerHistory → Prop} {c : WorkerCall}
    {p : c.Reply → Worker α} (hc : c.isState = false)
    (hp : ∀ a, Conflicting Q (p a) (t ++ [⟨c, .ok a⟩])) :
    Conflicting Q (Worker.ask c >>= p) t := by
  refine Prog.wp_ask_bind trivial (fun e he => ?_) fun a _ => hp a
  rw [MayConflict, hc] at he
  cases he.1

/-! ## Recording an outcome -/

theorem recordFailure_contains {failureClass : FailureClass} {errorCode : String}
    (h : Pending delivery f t) :
    Conflicting (Contains delivery)
      (recordFailure settings tenant delivery lease failureClass errorCode) t := by
  have hrest : ∀ (t : WorkerHistory) (retryAt : Option Timestamp), Pending delivery f t →
      Conflicting (Contains delivery) (do
        let at' ← Worker.clock
        tryCatch (do
            let _terminal ← Worker.ask
              (.fail tenant delivery lease at' failureClass errorCode retryAt)
            pure true)
          fun e => if e.isFencingError then pure false else throw e) t := by
    intro t retryAt h
    refine conflicting_ask rfl fun at' => Prog.wp_handle _ ?_
    have hnow := pending_ok h (c := .clock) rfl at'
    refine Prog.wp_ask_bind trivial (fun e _ => ?_) fun a _ => ?_
    · dsimp only
      split
      case isTrue hfencing =>
        refine contains_ok (pending_append hnow ?_)
        exact congrArg not hfencing
      case isFalse hfencing =>
        refine contains_error ?_
        exact congrArg not (Bool.eq_false_iff.2 hfencing)
    · exact contains_ok (pending_ok hnow rfl a)
  unfold recordFailure
  dsimp only
  split
  · refine conflicting_ask rfl fun now => ?_
    exact hrest _ _ (pending_ok h rfl now)
  · exact hrest t none h

/-- Cancelling ends well, or with the exception of `cancel`. -/
theorem recordCancel_contains (h : Pending delivery f t) :
    Conflicting (fun o u => match o with
      | .ok _ => Pending delivery f u
      | .error e => ∃ before at', Pending delivery f before ∧ e.isConcurrencyError = true ∧
          u = before ++ [⟨.cancel tenant delivery lease at', .error e⟩])
      (recordCancel tenant delivery lease) t := by
  refine conflicting_ask rfl fun now => ?_
  have hnow := pending_ok h (c := .clock) rfl now
  refine Prog.wp_ask_bind trivial (fun e he => ?_) fun a _ => ?_
  · exact ⟨_, now, hnow, he.2, rfl⟩
  · exact pending_ok hnow rfl a

/-- How an attempt ends: well, with an exception that is being handled, or cancelled. -/
def Attempted (delivery : QueueDelivery) (o : Except Thrown Bool) (t : WorkerHistory) : Prop :=
  match o with
  | .ok _ => Pending delivery none t
  | .error .cancelledError => contained delivery [] t = false
  | .error e => Pending delivery (some e) t

theorem attempted_error {c : WorkerCall} {e : Thrown} (h : Pending delivery none t)
    (he : e.isConcurrencyError = true) (hx : escapes delivery t ⟨c, .error e⟩ = false) :
    Attempted delivery (.error e) (t ++ [⟨c, .error e⟩]) := by
  cases e with
  | raised e => exact pending_error h hx
  | _ => cases he

/-- The rule for the calls of an attempt that are answered without a race. -/
theorem attempted_ask {c : WorkerCall} {p : c.Reply → Worker Bool} (h : Pending delivery none t)
    (hc : c.isExecute = false) (hx : ∀ e, escapes delivery t ⟨c, .error e⟩ = false)
    (hp : ∀ a, Pending delivery none (t ++ [⟨c, .ok a⟩]) →
      Conflicting (Attempted delivery) (p a) (t ++ [⟨c, .ok a⟩])) :
    Conflicting (Attempted delivery) (Worker.ask c >>= p) t := by
  refine Prog.wp_ask_bind trivial (fun e he => ?_) fun a _ => hp a (pending_ok h hc a)
  exact attempted_error h he.2 (hx e)

theorem attempt_contains (h : Pending delivery none t) :
    Conflicting (Attempted delivery) (attempt tenant delivery lease) t := by
  refine attempted_ask h rfl (fun _ => rfl) fun at' h => ?_
  refine attempted_ask h rfl (fun _ => rfl) fun _ h => ?_
  refine conflicting_ask rfl fun race => ?_
  refine Prog.wp_bind _ (Prog.wp_ofExcept ?_)
  cases hresult : Race.result delivery race with
  | error e =>
    dsimp only
    by_cases he : e = .cancelledError
    · -- the handler was cancelled: nothing catches that
      subst he
      unfold Attempted
      rw [contained_append, List.nil_append, escapes, hresult]
      simp
    · have hx : ∀ t, escapes delivery t ⟨.execute tenant delivery lease, .ok race⟩ = false := by
        intro t
        rw [escapes, hresult]
        cases e <;> first | rfl | exact absurd rfl he
      have hnext := pending_append h (hx _)
      rw [failure, hresult] at hnext
      cases e <;> first | exact hnext | exact absurd rfl he
  | ok result =>
    have hx : ∀ t, escapes delivery t ⟨.execute tenant delivery lease, .ok race⟩ = false := by
      intro t
      rw [escapes, hresult]
    have hnext := pending_append h (hx _)
    rw [failure, hresult] at hnext
    refine attempted_ask hnext rfl (fun _ => ?_) fun requested h => ?_
    · rw [escapes, hnext.2]
      rfl
    cases requested with
    | true =>
      refine Prog.wp_mono (fun o u hu => ?_) _ (recordCancel_contains h)
      cases o with
      | ok a => exact hu
      | error e =>
        obtain ⟨before, at', hbefore, he, rfl⟩ := hu
        refine attempted_error hbefore he ?_
        rw [escapes, hbefore.2]
    | false =>
      refine attempted_ask h rfl (fun _ => rfl) fun at' h => ?_
      refine attempted_ask h rfl (fun _ => rfl) fun _ h => ?_
      exact attempted_ask h rfl (fun _ => rfl) fun _ h => h

/-- Cancelling while an exception is handled, by a clause that catches nothing. -/
theorem recordCancel_handling {e : Thrown} (h : Pending delivery (some e) t)
    (he : e.isFencingError = false) :
    Conflicting (Contains delivery) (recordCancel tenant delivery lease) t := by
  refine Prog.wp_mono (fun o u hu => ?_) _ (recordCancel_contains h)
  cases o with
  | ok a => exact contains_ok hu
  | error e' =>
    obtain ⟨before, at', hbefore, -, rfl⟩ := hu
    refine contains_error ?_
    rw [escapes, hbefore.2]
    simp [he]

/-- Cancelling while a fencing error is handled, by the clause that catches another. -/
theorem recordCancel_fenced {e : Thrown} (h : Pending delivery (some e) t)
    (he : e.isFencingError = true) :
    Conflicting (Contains delivery) (tryCatch (recordCancel tenant delivery lease)
      fun e => if e.isFencingError then pure false else throw e) t := by
  refine Prog.wp_handle _ (Prog.wp_mono (fun o u hu => ?_) _ (recordCancel_contains h))
  cases o with
  | ok a => exact contains_ok hu
  | error e' =>
    obtain ⟨before, at', hbefore, -, rfl⟩ := hu
    dsimp only
    split
    case isTrue hfencing =>
      refine contains_ok (pending_append hbefore ?_)
      rw [escapes, hbefore.2]
      simp [he, hfencing]
    case isFalse hfencing =>
      refine contains_error ?_
      rw [escapes, hbefore.2]
      simp [hfencing]

/-- Asking for a cancellation while an exception is handled. -/
theorem requested_handling {e : Thrown} {workId : UUID} {p : Bool → Worker Bool}
    (h : Pending delivery (some e) t)
    (hp : ∀ (requested : Bool) (u : WorkerHistory), Pending delivery (some e) u →
      Conflicting (Contains delivery) (p requested) u) :
    Conflicting (Contains delivery)
      (Worker.ask (.cancellationRequested tenant workId) >>= p) t := by
  refine Prog.wp_ask_bind trivial (fun e' _ => ?_) fun requested _ => ?_
  · refine contains_error ?_
    rw [escapes, h.2]
    rfl
  · exact hp requested _ (pending_ok h rfl requested)

theorem handleFailure_contains {e : Thrown} (h : Pending delivery (some e) t)
    (he : e ≠ .cancelledError) :
    Conflicting (Contains delivery) (handleFailure settings tenant delivery lease e) t := by
  unfold handleFailure
  split
  · exact recordFailure_contains h
  · split
    · refine requested_handling h fun requested u hu => ?_
      cases requested with
      | true => exact recordCancel_handling hu rfl
      | false => exact contains_ok hu
    · exact recordFailure_contains h
  · refine requested_handling h fun requested u hu => ?_
    cases requested with
    | true => exact recordCancel_fenced hu rfl
    | false => exact contains_ok hu
  · exact absurd rfl he
  · exact recordFailure_contains h

/-- An attempt with its `except` clauses. -/
theorem attempted_contains (h : Pending delivery none t) :
    Conflicting (Contains delivery) (tryCatch (attempt tenant delivery lease)
      (handleFailure settings tenant delivery lease)) t := by
  refine Prog.wp_handle _ (Prog.wp_mono (fun o u hu => ?_) _ (attempt_contains h))
  cases o with
  | ok a => exact contains_ok hu
  | error e =>
    by_cases he : e = .cancelledError
    · subst he
      have hout : contained delivery [] u = false := hu
      exact ⟨fun ⟨_, h⟩ => (by cases h), fun h => (by rw [hout] at h; cases h)⟩
    · have hpending : Pending delivery (some e) u := by
        cases e <;> first | exact hu | exact absurd rfl he
      exact handleFailure_contains hpending he

/-! ## The whole delivery -/

/-- A last call that cannot fail. -/
theorem conflicting_last {c : WorkerCall} (h : Pending delivery f t) (hc : c.isState = false)
    (hexecute : c.isExecute = false) : Conflicting (Contains delivery) (Worker.ask c) t := by
  refine Prog.wp_ask trivial fun r hr => ?_
  cases r with
  | error e =>
    rw [MayConflict, hc] at hr
    cases hr.1
  | ok a => exact contains_ok (pending_ok h hexecute a)

theorem acknowledgeComplete_contains (h : Pending delivery f t) :
    Conflicting (Contains delivery) (acknowledgeComplete tenant delivery) t := by
  refine Prog.wp_ask_bind trivial (fun e _ => contains_error rfl) fun complete _ => ?_
  have hnext := pending_ok h (c := .deliveryComplete tenant delivery.envelope.workId) rfl complete
  cases complete with
  | false => exact contains_ok hnext
  | true => exact conflicting_last hnext rfl rfl

/-- How the claim ends: with an answer and nothing to handle, or for good. -/
def ClaimEnded (delivery : QueueDelivery) (o : Except Thrown (Option (Option WorkLease)))
    (t : WorkerHistory) : Prop :=
  match o with
  | .ok (some _) => Pending delivery none t
  | o => Contains delivery o t

theorem claimDelivery_contains {startedAt : Timestamp} (h : Pending delivery none t) :
    Conflicting (ClaimEnded delivery) (claimDelivery settings tenant delivery startedAt) t := by
  have hrefused : ∀ (e : Thrown) (t : WorkerHistory), Pending delivery (some e) t →
      e.isConcurrencyError = true → Conflicting (ClaimEnded delivery)
        (if e.isValueError then do
          let _ ← Worker.ask (.quarantine delivery "authoritative_delivery_rejected")
          pure none
        else if e.isConcurrencyError then do
          acknowledgeComplete tenant delivery
          pure none
        else throw e) t := by
    intro e t h he
    split
    · refine conflicting_ask rfl fun a => ?_
      exact contains_ok (pending_ok h rfl a)
    · refine Prog.wp_bind _ (Prog.wp_mono (fun o u hu => ?_) _ (acknowledgeComplete_contains h))
      cases o with
      | ok a => exact hu.returns none
      | error e => exact hu.raises
  refine Prog.wp_handle _ ?_
  refine Prog.wp_ask_bind trivial (fun e he => ?_) fun a _ => ?_
  · exact hrefused e _ (pending_error h rfl) he.2
  have hpublished := pending_ok h (c := .markPublished tenant delivery startedAt) rfl a
  refine conflicting_ask rfl fun quota => ?_
  have hquota := pending_ok hpublished (c := .quota tenant) rfl quota
  refine Prog.wp_ask_bind trivial (fun e he => ?_) fun claimed _ => ?_
  · exact hrefused e _ (pending_error hquota rfl) he.2
  · exact pending_ok hquota rfl claimed

theorem process_contains (settings : WorkerSettings) (delivery : QueueDelivery) :
    Conflicting (Contains delivery) (process settings delivery) [] := by
  have hempty : Pending delivery none [] := ⟨rfl, rfl⟩
  unfold process
  split
  case isFalse => exact conflicting_last hempty rfl rfl
  case isTrue htenant =>
    refine conflicting_ask rfl fun startedAt => ?_
    have hstarted := pending_ok hempty (c := .clock) rfl startedAt
    refine Prog.wp_ask_bind trivial (fun e _ => contains_error rfl) fun complete _ => ?_
    have hcomplete := pending_ok hstarted
      (c := .deliveryComplete ⟨_, htenant⟩ delivery.envelope.workId) rfl complete
    cases complete with
    | true => exact conflicting_last hcomplete rfl rfl
    | false =>
      refine Prog.wp_bind _ (Prog.wp_mono (fun o t ho => ?_) _ (claimDelivery_contains hcomplete))
      cases o with
      | error e => exact Contains.raises ho
      | ok answer =>
        cases answer with
        | none => exact Contains.returns () ho
        | some answer =>
          cases answer with
          | none => exact acknowledgeComplete_contains ho
          | some lease =>
            refine Prog.wp_bind _ (Prog.wp_mono (fun o u hu => ?_) _ (attempted_contains ho))
            cases o with
            | error e => exact hu.raises
            | ok durable =>
              cases durable with
              | false => exact hu.returns ()
              | true => exact conflicting_last ⟨hu.1 ⟨true, rfl⟩, rfl⟩ rfl rfl

/-- **`_process` returns exactly when nothing gets out.** -/
theorem process_returns {env : Env WorkerCall WorkerCall.Reply Thrown}
    (henv : ∀ h c, MayConflict c (env h c)) :
    ((process settings delivery).run env []).2 = .ok () ↔
      contained delivery [] ((process settings delivery).run env []).1 = true := by
  have hrun := Prog.run_outcome henv (process_contains settings delivery)
  exact ⟨fun h => hrun.1 ⟨(), h⟩, fun h => (hrun.2 h).elim fun _ h => h⟩

/-! ## Batches -/

namespace WorkerSupervisor

variable {loop : EventLoop} {b b' : WorkerSupervisor} {tasks : List Task}

/-- Waiting creates no task. -/
theorem waitBelow_started (settings : WorkerSettings) (loop : EventLoop) {limit : ℕ}
    (hlimit : 0 < limit) (b : WorkerSupervisor) :
    (b.waitBelow settings loop limit hlimit).1.started = b.started := by
  fun_induction waitBelow settings loop limit hlimit b with
  | case1 b _ e _ => rfl
  | case2 b _ _ ih => exact ih
  | case3 b _ => rfl

theorem forM_returns {ts : List Task} (h : ∀ t ∈ ts, t.result settings = .ok ()) :
    ts.forM (Task.result settings) = .ok () := by
  induction ts with
  | nil => rfl
  | cons t rest ih =>
    rw [List.forM, h t (List.mem_cons_self ..)]
    exact ih fun u hu => h u (List.mem_cons_of_mem _ hu)

/-- One wait, for tasks that return. -/
theorem waitOne_returns (hreturns : ∀ t ∈ b.active, t.result settings = .ok ()) :
    (b.waitOne settings loop).2 = .ok () ∧
      ∀ t ∈ (b.waitOne settings loop).1.active, t.result settings = .ok () := by
  have hperm := loop.wait_perm b.waits b.active
  refine ⟨forM_returns fun t ht => ?_, fun t ht => ?_⟩
  · exact hreturns t (hperm.subset (List.mem_append_left _ ht))
  · exact hreturns t (hperm.subset (List.mem_append_right _ ht))

/-- Waiting for tasks that return ends with fewer tasks than the limit. -/
theorem waitBelow_returns (settings : WorkerSettings) (loop : EventLoop) {limit : ℕ}
    (hlimit : 0 < limit)
    (hreturns : ∀ t ∈ b.active, t.result settings = .ok ()) :
    (b.waitBelow settings loop limit hlimit).2 = .ok () ∧
      (b.waitBelow settings loop limit hlimit).1.active.length < limit ∧
      ∀ t ∈ (b.waitBelow settings loop limit hlimit).1.active, t.result settings = .ok () := by
  fun_induction waitBelow settings loop limit hlimit b with
  | case1 b _ e he =>
    rw [(waitOne_returns hreturns).1] at he
    cases he
  | case2 b _ _ ih => exact ih (waitOne_returns hreturns).2
  | case3 b hlt => exact ⟨rfl, Nat.lt_of_not_le hlt, hreturns⟩

theorem pending_eq_nil {scheduler : FairTenantScheduler Task} (h : scheduler.roundRobin = []) :
    scheduler.pending = [] := by
  unfold FairTenantScheduler.pending
  rw [h]
  rfl

/-- **Every delivery becomes a task**, unless the supervisor is draining. -/
theorem dispatch_returns {scheduler : FairTenantScheduler Task} (hscheduler : scheduler.WellFormed)
    (hactive : ∀ t ∈ b.active, t.result settings = .ok ())
    (hpending : ∀ t ∈ scheduler.pending, t.result settings = .ok ())
    (hdraining : ∀ k < scheduler.pending.length,
      loop.draining (b.started.length + k) = false) :
    (b.dispatch settings loop scheduler).2 = .ok () ∧
      (∀ t ∈ (b.dispatch settings loop scheduler).1.active, t.result settings = .ok ()) ∧
      (b.dispatch settings loop scheduler).1.started.Perm (b.started ++ scheduler.pending) := by
  fun_induction dispatch settings loop scheduler b with
  | case1 scheduler b hempty =>
    rw [pending_eq_nil hempty, List.append_nil]
    exact ⟨rfl, hactive, List.Perm.refl _⟩
  | case2 scheduler b hsome b' e hwait =>
    have hreturns := (waitBelow_returns settings loop settings.bounded.1 hactive).1
    rw [hwait] at hreturns
    cases hreturns
  | case3 scheduler b hsome b' hwait hdrain =>
    have hstarted := waitBelow_started settings loop settings.bounded.1 b
    rw [hwait] at hstarted
    obtain ⟨t, rest, hpop⟩ := hscheduler.pop_ok hsome
    have hlength := (hscheduler.pop_perm hpop).2.length_eq
    have hnot := hdraining 0 (by rw [hlength]; exact Nat.succ_pos _)
    rw [Nat.add_zero, ← hstarted] at hnot
    exact absurd hdrain (Bool.eq_false_iff.1 hnot)
  | case4 scheduler b hsome b' hwait hdrain e hpop =>
    obtain ⟨t, rest, hsuccess⟩ := hscheduler.pop_ok hsome
    rw [hpop] at hsuccess
    cases hsuccess
  | case5 scheduler b hsome b' hwait hdrain rest hpop =>
    obtain ⟨t, rest, hsuccess⟩ := hscheduler.pop_ok hsome
    rw [hpop] at hsuccess
    cases hsuccess
  | case6 scheduler b hsome b' hwait hdrain t rest hpop ih =>
    have hstarted := waitBelow_started settings loop settings.bounded.1 b
    have hreturns := (waitBelow_returns settings loop settings.bounded.1 hactive).2.2
    rw [hwait] at hstarted hreturns
    obtain ⟨hrest, hperm⟩ := hscheduler.pop_perm hpop
    have hcreated : (b'.create t).started = b.started ++ [t] := by
      rw [create, hstarted]
    have hcreated_active : ∀ u ∈ (b'.create t).active, u.result settings = .ok () := by
      intro u hu
      rcases List.mem_append.1 hu with hu | hu
      · exact hreturns u hu
      · rw [List.mem_singleton.1 hu]
        exact hpending t (hperm.mem_iff.2 (List.mem_cons_self ..))
    have hrest_draining : ∀ k < rest.pending.length,
        loop.draining ((b'.create t).started.length + k) = false := by
      intro k hk
      have hnot := hdraining (k + 1) (by rw [hperm.length_eq]; exact Nat.succ_lt_succ hk)
      rw [hcreated, List.length_append, List.length_singleton, Nat.add_assoc, Nat.add_comm 1 k]
      exact hnot
    obtain ⟨hok, hdone, hall⟩ := ih hrest hcreated_active
      (fun u hu => hpending u (hperm.mem_iff.2 (List.mem_cons_of_mem _ hu))) hrest_draining
    refine ⟨hok, hdone, hall.trans ?_⟩
    rw [hcreated, List.append_assoc]
    exact (hperm.append_left b.started).symm

/-- If every delivery became a task, the supervisor was not draining. -/
theorem dispatch_draining {scheduler : FairTenantScheduler Task} (hscheduler : scheduler.WellFormed)
    (hok : (b.dispatch settings loop scheduler).2 = .ok ())
    (hall : (b.dispatch settings loop scheduler).1.started.length =
      b.started.length + scheduler.pending.length) :
    ∀ k < scheduler.pending.length, loop.draining (b.started.length + k) = false := by
  fun_induction dispatch settings loop scheduler b with
  | case1 scheduler b hempty =>
    intro k hk
    rw [pending_eq_nil hempty] at hk
    exact absurd hk (Nat.not_lt_zero k)
  | case2 scheduler b hsome b' e hwait => cases hok
  | case3 scheduler b hsome b' hwait hdrain =>
    have hstarted := waitBelow_started settings loop settings.bounded.1 b
    rw [hwait] at hstarted
    dsimp only at hall hstarted
    intro k hk
    rw [hstarted] at hall
    omega
  | case4 scheduler b hsome b' hwait hdrain e hpop => cases hok
  | case5 scheduler b hsome b' hwait hdrain rest hpop =>
    obtain ⟨t, rest, hsuccess⟩ := hscheduler.pop_ok hsome
    rw [hpop] at hsuccess
    cases hsuccess
  | case6 scheduler b hsome b' hwait hdrain t rest hpop ih =>
    have hstarted := waitBelow_started settings loop settings.bounded.1 b
    rw [hwait] at hstarted
    obtain ⟨hrest, hperm⟩ := hscheduler.pop_perm hpop
    have hcreated : (b'.create t).started.length = b.started.length + 1 := by
      rw [create, ← hstarted, List.length_append, List.length_singleton]
    have hlength : scheduler.pending.length = rest.pending.length + 1 := hperm.length_eq
    intro k hk
    cases k with
    | zero =>
      rw [Nat.add_zero, ← hstarted]
      exact Bool.eq_false_iff.2 hdrain
    | succ k =>
      have hlater := ih hrest hok (by omega) k (by omega)
      rw [hcreated, Nat.add_assoc, Nat.add_comm 1 k] at hlater
      exact hlater

/-- A round of the loop over the scheduler. -/
theorem dispatch_create {scheduler rest : FairTenantScheduler Task} {t : Task}
    (hfew : b.active.length < settings.maxConcurrency)
    (hdraining : loop.draining b.started.length = false)
    (hpop : scheduler.pop = .ok (some t, rest)) :
    b.dispatch settings loop scheduler = (b.create t).dispatch settings loop rest := by
  have hsome : scheduler.roundRobin ≠ [] := by
    obtain ⟨_, _, _, hturn, -⟩ := FairTenantScheduler.pop_eq_some hpop
    rw [hturn]
    exact List.cons_ne_nil _ _
  have hwait : b.waitBelow settings loop settings.maxConcurrency settings.bounded.1 =
      (b, .ok ()) := by
    rw [waitBelow, dif_neg (Nat.not_le.2 hfew)]
  rw [dispatch, if_neg hsome, hwait]
  simp only [hdraining, Bool.false_eq_true, if_false]
  split
  · rename_i hother
    rw [hpop] at hother
    cases hother
  · rename_i hother
    rw [hpop] at hother
    cases hother
  · rename_i hother
    rw [hpop] at hother
    cases hother
    rfl

/-- A batch whose deliveries all became tasks waits for them. -/
theorem runBatch_eq (hok : (b.dispatch settings loop
      (FairTenantScheduler.empty.add Task.tenantId tasks)).2 = .ok ()) :
    b.runBatch settings loop tasks = waitBelow settings loop 1 Nat.one_pos
        (b.dispatch settings loop (FairTenantScheduler.empty.add Task.tenantId tasks)).1 ∧
      (b.runBatch settings loop tasks).1.started = (b.dispatch settings loop
        (FairTenantScheduler.empty.add Task.tenantId tasks)).1.started := by
  have hrun : b.runBatch settings loop tasks = waitBelow settings loop 1 Nat.one_pos
      (b.dispatch settings loop (FairTenantScheduler.empty.add Task.tenantId tasks)).1 := by
    unfold runBatch
    split
    · rename_i b' e hdispatch
      rw [hdispatch] at hok
      cases hok
    · rename_i b' hdispatch
      rw [hdispatch]
  refine ⟨hrun, ?_⟩
  rw [hrun]
  exact waitBelow_started settings loop Nat.one_pos _

theorem runBatch_ok (hok : (b.runBatch settings loop tasks).2 = .ok ()) :
    (b.dispatch settings loop (FairTenantScheduler.empty.add Task.tenantId tasks)).2 = .ok () ∧
      (b.runBatch settings loop tasks).1.started = (b.dispatch settings loop
        (FairTenantScheduler.empty.add Task.tenantId tasks)).1.started := by
  have hdispatched : (b.dispatch settings loop
      (FairTenantScheduler.empty.add Task.tenantId tasks)).2 = .ok () := by
    unfold runBatch at hok
    split at hok
    · cases hok
    · rename_i b' hdispatch
      rw [hdispatch]
  exact ⟨hdispatched, (runBatch_eq hdispatched).2⟩

end WorkerSupervisor

/-- The batch as a whole: every delivery is processed without an exception, and
`run_batch` returns with nothing left to wait for. -/
def BatchReturns (settings : WorkerSettings) (loop : EventLoop) (tasks : List Task) : Prop :=
  (∀ t ∈ tasks, t.result settings = .ok ()) ∧
  (WorkerSupervisor.initial.runBatch settings loop tasks).2 = .ok () ∧
  (WorkerSupervisor.initial.runBatch settings loop tasks).1.started.Perm tasks ∧
  (WorkerSupervisor.initial.runBatch settings loop tasks).1.active = []

/-- **What the supervisor contains.**  Where the state store may raise a conflict at any
call and handlers may end in any way, a batch is processed as a whole exactly when no
exception gets out of an `except` clause, and the supervisor does not drain. -/
theorem batch_contained (settings : WorkerSettings) (loop : EventLoop) (tasks : List Task)
    (henv : ∀ t ∈ tasks, ∀ h c, MayConflict c (t.env h c)) :
    BatchReturns settings loop tasks ↔
      (∀ t ∈ tasks, contained t.delivery [] (t.history settings) = true) ∧
        ∀ k < tasks.length, loop.draining k = false := by
  have hscheduler : (FairTenantScheduler.empty.add Task.tenantId tasks).WellFormed :=
    FairTenantScheduler.add_wellFormed tasks FairTenantScheduler.wellFormed_empty
  have hperm : (FairTenantScheduler.empty.add Task.tenantId tasks).pending.Perm tasks := by
    refine (FairTenantScheduler.add_perm tasks FairTenantScheduler.wellFormed_empty).trans ?_
    exact List.Perm.of_eq (List.append_nil tasks)
  have hreturns : ∀ t ∈ tasks, t.result settings = .ok () ↔
      contained t.delivery [] (t.history settings) = true :=
    fun t ht => process_returns (henv t ht)
  constructor
  · rintro ⟨hresults, hok, hstarted, -⟩
    refine ⟨fun t ht => (hreturns t ht).1 (hresults t ht), fun k hk => ?_⟩
    obtain ⟨hdispatched, hrun⟩ := WorkerSupervisor.runBatch_ok hok
    have hall : (WorkerSupervisor.initial.dispatch settings loop
        (FairTenantScheduler.empty.add Task.tenantId tasks)).1.started.length =
        WorkerSupervisor.initial.started.length +
          (FairTenantScheduler.empty.add Task.tenantId tasks).pending.length := by
      rw [← hrun, hstarted.length_eq, hperm.length_eq]
      exact (Nat.zero_add _).symm
    have hnot := WorkerSupervisor.dispatch_draining hscheduler hdispatched hall k
      (hperm.length_eq.symm ▸ hk)
    exact (congrArg loop.draining (Nat.zero_add k)).symm.trans hnot
  · rintro ⟨hcontained, hdraining⟩
    have hresults : ∀ t ∈ tasks, t.result settings = .ok () :=
      fun t ht => (hreturns t ht).2 (hcontained t ht)
    have hnot : ∀ k < (FairTenantScheduler.empty.add Task.tenantId tasks).pending.length,
        loop.draining (WorkerSupervisor.initial.started.length + k) = false := by
      intro k hk
      rw [hperm.length_eq] at hk
      exact (congrArg loop.draining (Nat.zero_add k)).trans (hdraining k hk)
    obtain ⟨hok, hactive, hstarted⟩ := WorkerSupervisor.dispatch_returns hscheduler
      (fun t ht => (by cases ht)) (fun t ht => hresults t (hperm.subset ht)) hnot
    obtain ⟨hrun, hstarts⟩ := WorkerSupervisor.runBatch_eq hok
    obtain ⟨hwaited, hfew, -⟩ := WorkerSupervisor.waitBelow_returns settings loop Nat.one_pos hactive
    unfold BatchReturns
    rw [hstarts, hrun]
    refine ⟨hresults, hwaited, hstarted.trans hperm, ?_⟩
    exact List.length_eq_zero_iff.1 (Nat.lt_one_iff.1 hfew)

/-- An event loop in which the oldest task is done first. -/
def oldestFirst : EventLoop where
  wait _ active := (active.take 1, active.drop 1)
  draining _ := false
  wait_perm _ active := List.Perm.of_eq (List.take_append_drop 1 active)
  wait_done _ active hactive := by
    cases active with
    | nil => exact absurd rfl hactive
    | cons t rest => exact List.cons_ne_nil _ _

/-- The handler returns, and nothing goes wrong. -/
def calmTask : Task :=
  ⟨plainDelivery (UUID.ofNat 1), plainEnv (.ok plainResult) (.ok false)⟩

/-- The handler raises, and recording that meets another version of the item. -/
def conflictTask : Task := ⟨plainDelivery (UUID.ofNat 2),
  plainEnv (.error (.other "RuntimeError")) (.error (.raised (.concurrencyError 3 4)))⟩

theorem plainEnv_mayConflict {finished : Except Thrown WorkResult} {failed : Except Thrown Bool}
    (hfailed : ∀ e, failed = .error e → e.isConcurrencyError = true) (h : WorkerHistory)
    (c : WorkerCall) : MayConflict c (plainEnv finished failed h c) := by
  cases c with
  | fail tenant delivery lease at' failureClass errorCode retryAt =>
    cases failed with
    | ok terminal => trivial
    | error e => exact ⟨rfl, hfailed e rfl⟩
  | _ => trivial

theorem batch_contained_calm : BatchReturns plainSettings oldestFirst [calmTask] := by
  refine (batch_contained plainSettings oldestFirst [calmTask] fun t ht => ?_).2
    ⟨fun t ht => ?_, fun _ _ => rfl⟩
  · rw [List.mem_singleton.1 ht]
    exact plainEnv_mayConflict fun e h => (by cases h)
  · rw [List.mem_singleton.1 ht]
    rfl

/-- The exception of the first task ends the batch while the second still runs. -/
theorem batch_abandoned :
    (∀ t ∈ [conflictTask, calmTask], ∀ h c, MayConflict c (t.env h c)) ∧
    conflictTask.result plainSettings = .error (.raised (.concurrencyError 3 4)) ∧
    (WorkerSupervisor.initial.runBatch plainSettings oldestFirst [conflictTask, calmTask]).2 =
      .error (.raised (.concurrencyError 3 4)) ∧
    (WorkerSupervisor.initial.runBatch plainSettings oldestFirst [conflictTask, calmTask]).1.active =
      [calmTask] := by
  have hrun : WorkerSupervisor.initial.runBatch plainSettings oldestFirst [conflictTask, calmTask] =
      (⟨[calmTask], [conflictTask, calmTask], 1⟩, .error (.raised (.concurrencyError 3 4))) := by
    have hdispatch : WorkerSupervisor.initial.dispatch plainSettings oldestFirst
        (FairTenantScheduler.empty.add Task.tenantId [conflictTask, calmTask]) =
        (⟨[conflictTask, calmTask], [conflictTask, calmTask], 0⟩, .ok ()) := by
      rw [WorkerSupervisor.dispatch_create (by decide) rfl rfl,
        WorkerSupervisor.dispatch_create (by decide) rfl rfl]
      unfold WorkerSupervisor.dispatch
      rfl
    unfold WorkerSupervisor.runBatch
    rw [hdispatch]
    unfold WorkerSupervisor.waitBelow
    rfl
  rw [hrun]
  refine ⟨fun t ht => ?_, rfl, rfl, rfl⟩
  rcases List.mem_pair.1 ht with rfl | rfl
  · refine plainEnv_mayConflict fun e h => ?_
    cases h
    rfl
  · exact plainEnv_mayConflict fun e h => (by cases h)

end AegisPlatform
