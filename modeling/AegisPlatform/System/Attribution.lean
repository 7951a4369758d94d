import AegisPlatform.Runtime.Repository
import AegisPlatform.System.Supervision

/-!
# Whose fault a failure is

The supervisor records a `WORKER_BUG`, which no retry undoes, for every exception its
`except` clauses do not name.  Storage errors of `start`, `succeed`, `cancel` and
`cancellation_requested` end up there too, a conflict or an outage as well as a bug of the
handler.

* `First` — the first call of a delivery that raised.
* `worker_bugs_attributed` — a worker bug is recorded that the handler did not raise exactly
  when that call was a fault of the store, or the handler named the class itself.
* `finished_dead_lettered` — it happens to work whose handler returned its result.
-/

namespace AegisPlatform

open Effects

/-! ## Exceptions of the store -/

namespace Thrown

/-- The exceptions of the state store. -/
def isStoreError : Thrown → Bool
  | raised (.concurrencyError ..) | raised (.fencingError ..) | raised .transientStorageError
  | raised (.permanentStorageError _) => true
  | _ => false

/-- Is it neither `TimeoutError` nor `WorkerExecutionError`? -/
def isBug : Thrown → Bool
  | timeoutError | workerExecutionError .. => false
  | _ => true

/-- Do the `except` clauses record it as a worker bug? -/
def recordsBug : Thrown → Bool
  | timeoutError | cancelledError | raised (.fencingError ..) => false
  | workerExecutionError failureClass _ => failureClass = .workerBug
  | _ => true

end Thrown

/-- What the environment may answer: the clock does not fail, and what the state store
raises is one of its own exceptions.  The handler may raise anything. -/
def StoreLawful : (c : WorkerCall) → Except Thrown c.Reply → Prop
  | .clock, .error _ | .execute .., .error _ => False
  | .start .., .error e | .succeed .., .error e | .cancel .., .error e
  | .cancellationRequested .., .error e => e.isStoreError = true
  | .execute .., .ok race => ∀ beat ∈ race.beats, ∀ e, beat.cancellationRequested = .error e →
      e.isStoreError = true
  | _, _ => True

/-! ## Reading a history -/

/-- Does the call record a worker bug? -/
def WorkerCall.isWorkerBug : WorkerCall → Bool
  | fail _ _ _ _ failureClass _ _ => failureClass = .workerBug
  | _ => false

/-- The handler itself ended with an exception that is neither `TimeoutError` nor
`WorkerExecutionError`. -/
def HandlerRaised : Answered WorkerCall WorkerCall.Reply Thrown → Prop
  | ⟨.execute .., .ok race⟩ => ∃ e, race.finished = some (.error e) ∧ e.isBug = true
  | _ => False

/-- The call raised, or `_execute_handler` made an exception of its answer. -/
def Raises : Answered WorkerCall WorkerCall.Reply Thrown → Prop
  | ⟨.execute _ delivery _, .ok race⟩ => ∃ e, race.result delivery = .error e
  | ⟨_, answer⟩ => ∃ e, answer = .error e

/-- A conflict or an outage of the store, no lost lease: from `start`, `succeed`, `cancel`
or `cancellation_requested`, or from the `cancellation_requested` of a heartbeat while the
handler raised nothing worth recording. -/
def StoreFault : Answered WorkerCall WorkerCall.Reply Thrown → Prop
  | ⟨.start .., .error e⟩ | ⟨.succeed .., .error e⟩ | ⟨.cancel .., .error e⟩
  | ⟨.cancellationRequested .., .error e⟩ => e.isFencingError = false
  | ⟨.execute _ delivery _, .ok race⟩ => (∃ timeout, timeoutSeconds delivery = .ok timeout) ∧
      (∃ e, Race.heartbeat race.beats = some e ∧ e.isStoreError = true ∧
        e.isFencingError = false) ∧
      ¬ ∃ e, race.finished = some (.error e) ∧ e.isBug = true
  | _ => False

/-- The handler raised a `WorkerExecutionError` of the class `WORKER_BUG`. -/
def ClassifiedBug : Answered WorkerCall WorkerCall.Reply Thrown → Prop
  | ⟨.execute _ delivery _, .ok race⟩ => ∃ code, race.result delivery =
      .error (.workerExecutionError .workerBug code)
  | _ => False

/-- Nothing has raised so far. -/
def Clean (h : WorkerHistory) : Prop := ∀ x ∈ h, ¬ Raises x

/-- The first call that raised is as `P` says. -/
def First (P : Answered WorkerCall WorkerCall.Reply Thrown → Prop) (h : WorkerHistory) : Prop :=
  ∃ before x later, h = before ++ x :: later ∧ Clean before ∧ Raises x ∧ P x

/-- What is recorded as a worker bug though the handler raised none. -/
def Misrecorded (x : Answered WorkerCall WorkerCall.Reply Thrown) : Prop :=
  StoreFault x ∨ ClassifiedBug x

variable {settings : WorkerSettings} {tenant : TenantContext} {delivery : QueueDelivery}
  {lease : WorkLease} {h t : WorkerHistory} {x : Answered WorkerCall WorkerCall.Reply Thrown}
  {P P' : Answered WorkerCall WorkerCall.Reply Thrown → Prop}

theorem StoreFault.raises (hx : StoreFault x) : Raises x := by
  unfold StoreFault at hx
  split at hx
  · exact ⟨_, rfl⟩
  · exact ⟨_, rfl⟩
  · exact ⟨_, rfl⟩
  · exact ⟨_, rfl⟩
  · obtain ⟨⟨timeout, htimeout⟩, ⟨e, hbeat, -⟩, -⟩ := hx
    refine ⟨e, ?_⟩
    rw [Race.result, htimeout, hbeat]
    rfl
  · cases hx

theorem HandlerRaised.raises (hx : HandlerRaised x) : Raises x := by
  unfold HandlerRaised at hx
  split at hx
  · rename_i tenant delivery lease race
    obtain ⟨e, hfinished, -⟩ := hx
    show ∃ e, race.result delivery = .error e
    rw [Race.result, hfinished]
    cases timeoutSeconds delivery with
    | error e' => exact ⟨e', rfl⟩
    | ok timeout =>
      cases Race.heartbeat race.beats with
      | some e' => exact ⟨e', rfl⟩
      | none => exact ⟨e, rfl⟩
  · cases hx

theorem Clean.append (hh : Clean h) (hx : ¬ Raises x) : Clean (h ++ [x]) := by
  intro y hy
  rcases List.mem_append.1 hy with hy | hy
  · exact hh y hy
  · rw [List.mem_singleton.1 hy]
    exact hx

theorem First.append (hh : First P h) (more : WorkerHistory) : First P (h ++ more) := by
  obtain ⟨before, x, later, rfl, hbefore, hx⟩ := hh
  exact ⟨before, x, later ++ more, by rw [List.append_assoc]; rfl, hbefore, hx⟩

/-- The first call that raised is one call. -/
theorem First.and (hh : First P h) (hh' : First P' h) : ∃ x, P x ∧ P' x := by
  obtain ⟨before, x, later, heq, hbefore, hraises, hx⟩ := hh
  obtain ⟨before', x', later', heq', hbefore', hraises', hx'⟩ := hh'
  have hone : x = x' := by
    subst heq
    rcases List.append_eq_append_iff.1 heq' with ⟨mid, rfl, hmid⟩ | ⟨mid, rfl, hmid⟩
    · cases mid with
      | nil =>
        rw [List.nil_append, List.cons.injEq] at hmid
        exact hmid.1
      | cons y mid =>
        rw [List.cons_append, List.cons.injEq] at hmid
        rw [← hmid.1] at hbefore'
        exact absurd hraises (hbefore' x (List.mem_append_right _ (List.mem_cons_self ..)))
    · cases mid with
      | nil =>
        rw [List.nil_append, List.cons.injEq] at hmid
        exact hmid.1.symm
      | cons y mid =>
        rw [List.cons_append, List.cons.injEq] at hmid
        rw [← hmid.1] at hbefore
        exact absurd hraises' (hbefore x' (List.mem_append_right _ (List.mem_cons_self ..)))
  exact ⟨x, hx, hone ▸ hx'⟩

theorem Clean.not_first (hh : Clean h) : ¬ First P h := by
  rintro ⟨before, x, later, rfl, -, hx, -⟩
  exact hh x (List.mem_append_right _ (List.mem_cons_self ..)) hx

theorem Clean.first (hh : Clean h) (hx : Raises x) (hP : P x) : First P (h ++ [x]) :=
  ⟨h, x, [], rfl, hh, hx, hP⟩

theorem Clean.not_handlerRaised (hh : Clean h) : ∀ y ∈ h, ¬ HandlerRaised y :=
  fun y hy hraised => hh y hy hraised.raises

/-! ## The rule -/

/-- A worker bug is recorded when the first call that raised is misrecorded, or the handler
raised a bug. -/
def BugRule (h : WorkerHistory) (c : WorkerCall) : Prop :=
  c.isWorkerBug = true → First Misrecorded h ∨ ∃ y ∈ h, HandlerRaised y

/-- A worker bug has been recorded that the handler did not raise. -/
structure Blamed (h : WorkerHistory) : Prop where
  first : First Misrecorded h
  recorded : ∃ x ∈ h, x.1.isWorkerBug = true
  innocent : ∀ y ∈ h, ¬ HandlerRaised y

/-- The first call that raised is none that is misrecorded. -/
abbrev Proceeding : WorkerHistory → Prop := First fun x => ¬ Misrecorded x

/-- What a delivery ends with. -/
def Kept (h : WorkerHistory) : Prop := Clean h ∨ Proceeding h ∨ Blamed h

theorem Proceeding.not_first (hh : Proceeding h) : ¬ First Misrecorded h := by
  intro hfirst
  obtain ⟨x, hx, hx'⟩ := First.and hh hfirst
  exact hx hx'

/-- The calls of an attempt: those of the state store under a lease, and the race. -/
def WorkerCall.isAttempt : WorkerCall → Bool
  | start .. | succeed .. | cancel .. | cancellationRequested .. | execute .. => true
  | _ => false

theorem raises_error (c : WorkerCall) (e : Thrown) : Raises ⟨c, .error e⟩ := by
  cases c <;> exact ⟨e, rfl⟩

theorem not_raises_ok {c : WorkerCall} (hc : ∀ tenant delivery lease, c ≠ .execute tenant delivery lease)
    (a : c.Reply) : ¬ Raises ⟨c, .ok a⟩ := by
  cases c with
  | execute tenant delivery lease => exact absurd rfl (hc tenant delivery lease)
  | _ =>
    rintro ⟨e, he⟩
    cases he

theorem not_handlerRaised {c : WorkerCall}
    (hc : ∀ tenant delivery lease, c ≠ .execute tenant delivery lease)
    (r : Except Thrown c.Reply) : ¬ HandlerRaised ⟨c, r⟩ := by
  cases c with
  | execute tenant delivery lease => exact absurd rfl (hc tenant delivery lease)
  | _ => exact fun h => h

theorem not_misrecorded {c : WorkerCall} (hc : c.isAttempt = false) (r : Except Thrown c.Reply) :
    ¬ Misrecorded ⟨c, r⟩ := by
  cases c with
  | start | succeed | cancel | cancellationRequested | execute => cases hc
  | _ => exact fun h => h.elim id id

theorem ne_execute_of_isAttempt {c : WorkerCall} (hc : c.isAttempt = false)
    (tenant : TenantContext) (delivery : QueueDelivery) (lease : WorkLease) :
    c ≠ .execute tenant delivery lease := by
  rintro rfl
  cases hc

theorem Blamed.append {c : WorkerCall} (hh : Blamed h) (hc : c.isAttempt = false)
    (r : Except Thrown c.Reply) : Blamed (h ++ [⟨c, r⟩]) := by
  refine ⟨hh.first.append _, ?_, fun y hy => ?_⟩
  · obtain ⟨x, hx, hbug⟩ := hh.recorded
    exact ⟨x, List.mem_append_left _ hx, hbug⟩
  · rcases List.mem_append.1 hy with hy | hy
    · exact hh.innocent y hy
    · rw [List.mem_singleton.1 hy]
      exact not_handlerRaised (ne_execute_of_isAttempt hc) r

/-- A call that is none of the attempt's. -/
theorem Kept.append {c : WorkerCall} (hh : Kept h) (hc : c.isAttempt = false)
    (r : Except Thrown c.Reply) : Kept (h ++ [⟨c, r⟩]) := by
  rcases hh with hclean | hsettled | hblamed
  · cases r with
    | ok a => exact Or.inl (hclean.append (not_raises_ok (ne_execute_of_isAttempt hc) a))
    | error e => exact Or.inr (Or.inl (hclean.first (raises_error c e) (not_misrecorded hc _)))
  · exact Or.inr (Or.inl (hsettled.append _))
  · exact Or.inr (Or.inr (hblamed.append hc r))

/-- The rule for programs that record a worker bug by the rule. -/
abbrev BugLawful {α : Type} (Q : Except Thrown α → WorkerHistory → Prop) (p : Worker α)
    (h : WorkerHistory) : Prop := p.wp StoreLawful BugRule Q h

theorem bugRule_other {c : WorkerCall} (hc : c.isWorkerBug = false) : BugRule h c := by
  intro hbug
  rw [hc] at hbug
  cases hbug

/-- The rule for a call that is none of the attempt's, and what follows it. -/
theorem kept_ask {α : Type} {c : WorkerCall} {f : c.Reply → Worker α} (hc : c.isAttempt = false)
    (hbug : c.isWorkerBug = false) (hh : Kept h)
    (hf : ∀ a t, Kept t → BugLawful (fun _ t => Kept t) (f a) t) :
    BugLawful (fun _ t => Kept t) (Worker.ask c >>= f) h :=
  Prog.wp_ask_bind (bugRule_other hbug) (fun _ _ => hh.append hc _)
    fun a _ => hf a _ (hh.append hc _)

theorem kept_call {c : WorkerCall} (hc : c.isAttempt = false) (hbug : c.isWorkerBug = false)
    (hh : Kept h) : BugLawful (fun _ t => Kept t) (Worker.ask c) h :=
  Prog.wp_ask (bugRule_other hbug) fun _ _ => hh.append hc _

theorem acknowledgeComplete_kept (hh : Kept h) :
    BugLawful (fun _ t => Kept t) (acknowledgeComplete tenant delivery) h := by
  refine kept_ask rfl rfl hh fun complete t ht => ?_
  cases complete with
  | false => exact ht
  | true => exact kept_call rfl rfl ht

/-! ## The attempt -/

/-- How an attempt ends: with an exception that is rightly recorded, or with one that is
not. -/
def AttemptEnd (o : Except Thrown Bool) (t : WorkerHistory) : Prop :=
  match o with
  | .ok _ => Clean t
  | .error e => e.recordsBug = true ∧ First Misrecorded t ∧ (∀ y ∈ t, ¬ HandlerRaised y) ∨
      Proceeding t ∧ (e.recordsBug = true → ∃ y ∈ t, HandlerRaised y)

theorem recordsBug_of_isStoreError {e : Thrown} (he : e.isStoreError = true) :
    e.recordsBug = !e.isFencingError := by
  cases e with
  | raised e => cases e <;> rfl
  | _ => cases he

/-- A call of the state store that raised. -/
theorem attemptEnd_error {c : WorkerCall} {e : Thrown} (hh : Clean h)
    (hc : ∀ tenant delivery lease, c ≠ .execute tenant delivery lease)
    (he : e.isStoreError = true)
    (hfault : e.isFencingError = false ↔ Misrecorded ⟨c, .error e⟩) :
    AttemptEnd (.error e) (h ++ [⟨c, .error e⟩]) := by
  cases hfencing : e.isFencingError with
  | false =>
    refine Or.inl ⟨?_, hh.first (raises_error c e) (hfault.1 hfencing), fun y hy => ?_⟩
    · rw [recordsBug_of_isStoreError he, hfencing]
      rfl
    · rcases List.mem_append.1 hy with hy | hy
      · exact hh.not_handlerRaised y hy
      · rw [List.mem_singleton.1 hy]
        exact not_handlerRaised hc _
  | true =>
    refine Or.inr ⟨hh.first (raises_error c e) fun hm => ?_, fun hbug => ?_⟩
    · rw [hfault.2 hm] at hfencing
      cases hfencing
    · rw [recordsBug_of_isStoreError he, hfencing] at hbug
      cases hbug

/-- Is it a call of the state store under a lease? -/
def WorkerCall.isLeased : WorkerCall → Bool
  | start .. | succeed .. | cancel .. | cancellationRequested .. => true
  | _ => false

/-- The rule for a call of the state store in an attempt, and what follows it. -/
theorem attempt_state {c : WorkerCall} {f : c.Reply → Worker Bool} (hc : c.isLeased = true)
    (hh : Clean h) (hf : ∀ a t, Clean t → BugLawful AttemptEnd (f a) t) :
    BugLawful AttemptEnd (Worker.ask c >>= f) h := by
  refine Prog.wp_ask_bind (bugRule_other ?_) (fun e he => ?_) fun a _ => hf a _ ?_
  · cases c <;> first | rfl | cases hc
  · cases c with
    | start | succeed | cancel | cancellationRequested =>
      exact attemptEnd_error hh (fun _ _ _ h => (by cases h)) he
        ⟨Or.inl, fun h => h.elim id False.elim⟩
    | _ => cases hc
  · refine hh.append (not_raises_ok ?_ a)
    rintro _ _ _ rfl
    cases hc

/-- The clock does not raise. -/
theorem attempt_clock {f : Timestamp → Worker Bool} (hh : Clean h)
    (hf : ∀ a t, Clean t → BugLawful AttemptEnd (f a) t) :
    BugLawful AttemptEnd (Worker.clock >>= f) h := by
  refine Prog.wp_ask_bind (bugRule_other rfl) (fun e he => (by cases he)) fun a _ => hf a _ ?_
  exact hh.append (not_raises_ok (fun _ _ _ h => (by cases h)) a)

/-- A heartbeat ends with an exception of the store, or with its own. -/
theorem heartbeat_cases {beats : List Beat} {e : Thrown}
    (hbeats : ∀ beat ∈ beats, ∀ e, beat.cancellationRequested = .error e → e.isStoreError = true)
    (h : Race.heartbeat beats = some e) : e.isStoreError = true ∨ e.recordsBug = false := by
  induction beats with
  | nil => cases h
  | cons beat rest ih =>
    rw [Race.heartbeat] at h
    split at h
    · rename_i e' he'
      cases h
      exact Or.inl (hbeats beat (List.mem_cons_self ..) _ he')
    · split at h
      · cases h
        exact Or.inr rfl
      · exact ih (fun beat hbeat => hbeats beat (List.mem_cons_of_mem _ hbeat)) h
      · cases h

theorem not_isWorkerBug_of_timeoutSeconds {e : Thrown} (h : timeoutSeconds delivery = .error e) :
    e = .workerExecutionError .permanent "invalid_task_timeout" := by
  unfold timeoutSeconds at h
  split at h
  · split at h
    · cases h
    · cases h
      rfl
  · cases h
    rfl

/-- What `_execute_handler` raises. -/
theorem attemptEnd_race {race : Race} {e : Thrown} (hh : Clean h)
    (hlawful : StoreLawful (.execute tenant delivery lease) (.ok race))
    (he : race.result delivery = .error e) :
    AttemptEnd (.error e) (h ++ [⟨.execute tenant delivery lease, .ok race⟩]) := by
  set x : Answered WorkerCall WorkerCall.Reply Thrown :=
    ⟨.execute tenant delivery lease, .ok race⟩ with hx
  have hraises : Raises x := ⟨e, he⟩
  have hmem : x ∈ h ++ [x] := List.mem_append_right _ (List.mem_singleton.2 rfl)
  by_cases hhandler : HandlerRaised x
  · -- then neither of the two misreadings applies
    refine Or.inr ⟨hh.first hraises ?_, fun _ => ⟨x, hmem, hhandler⟩⟩
    rintro (⟨-, -, hnot⟩ | ⟨code, hcode⟩)
    · exact hnot hhandler
    · obtain ⟨e', hfinished, hbug⟩ := hhandler
      rw [Race.result, hfinished] at hcode
      cases htimeout : timeoutSeconds delivery with
      | error e'' =>
        rw [htimeout, not_isWorkerBug_of_timeoutSeconds htimeout] at hcode
        cases hcode
      | ok timeout =>
        rw [htimeout] at hcode
        cases hbeat : Race.heartbeat race.beats with
        | some e'' =>
          rw [hbeat] at hcode
          cases hcode
          rcases heartbeat_cases hlawful hbeat with hstore | hrecords
          · cases hstore
          · cases hrecords
        | none =>
          rw [hbeat] at hcode
          cases hcode
          cases hbug
  · have hinnocent : ∀ y ∈ h ++ [x], ¬ HandlerRaised y := by
      intro y hy
      rcases List.mem_append.1 hy with hy | hy
      · exact hh.not_handlerRaised y hy
      · rw [List.mem_singleton.1 hy]
        exact hhandler
    by_cases hmis : Misrecorded x
    · refine Or.inl ⟨?_, hh.first hraises hmis, hinnocent⟩
      rcases hmis with ⟨⟨timeout, htimeout⟩, ⟨e', hbeat, hstore, hfencing⟩, -⟩ | ⟨code, hcode⟩
      · rw [Race.result, htimeout, hbeat] at he
        cases he
        rw [recordsBug_of_isStoreError hstore, hfencing]
        rfl
      · rw [he] at hcode
        cases hcode
        rfl
    · refine Or.inr ⟨hh.first hraises hmis, fun hbug => absurd ?_ hmis⟩
      have hresult := he
      rw [Race.result] at he
      cases htimeout : timeoutSeconds delivery with
      | error e' =>
        rw [htimeout, not_isWorkerBug_of_timeoutSeconds htimeout] at he
        cases he
        cases hbug
      | ok timeout =>
        rw [htimeout] at he
        cases hbeat : Race.heartbeat race.beats with
        | some e' =>
          rw [hbeat] at he
          cases he
          rcases heartbeat_cases hlawful hbeat with hstore | hrecords
          · rw [recordsBug_of_isStoreError hstore, Bool.not_eq_true'] at hbug
            exact Or.inl ⟨⟨timeout, htimeout⟩, ⟨_, hbeat, hstore, hbug⟩, hhandler⟩
          · rw [hrecords] at hbug
            cases hbug
        | none =>
          cases hfinished : race.finished with
          | none =>
            rw [hbeat, hfinished] at he
            cases he
            cases hbug
          | some outcome =>
            rw [hbeat, hfinished] at he
            change outcome = .error e at he
            subst he
            -- the handler's own exception: not a bug, so one it has classified
            cases hisBug : e.isBug with
            | true => exact absurd ⟨e, hfinished, hisBug⟩ hhandler
            | false =>
              cases e with
              | workerExecutionError failureClass code =>
                have hclass : failureClass = .workerBug := of_decide_eq_true hbug
                subst hclass
                exact Or.inr ⟨code, hresult⟩
              | timeoutError => cases hbug
              | _ => cases hisBug

theorem attempt_ends (hh : Clean h) :
    BugLawful AttemptEnd (attempt tenant delivery lease) h := by
  have hcancel : ∀ t, Clean t → BugLawful AttemptEnd (recordCancel tenant delivery lease) t :=
    fun t ht => attempt_clock ht fun at' t ht => attempt_state rfl ht fun _ t ht => ht
  refine attempt_clock hh fun at' t ht => attempt_state rfl ht fun _ t ht => ?_
  refine Prog.wp_ask_bind (bugRule_other rfl) (fun e he => (by cases he)) fun race hrace => ?_
  refine Prog.wp_bind _ (Prog.wp_ofExcept ?_)
  cases hresult : Race.result delivery race with
  | error e => exact attemptEnd_race ht hrace hresult
  | ok result =>
    have ht' : Clean (t ++ [⟨.execute tenant delivery lease, .ok race⟩]) := by
      refine ht.append ?_
      rintro ⟨e, he⟩
      rw [hresult] at he
      cases he
    refine attempt_state rfl ht' fun requested t ht => ?_
    cases requested with
    | true => exact hcancel t ht
    | false =>
      refine attempt_clock ht fun at' t ht => attempt_state rfl ht fun _ t ht => ?_
      exact attempt_clock ht fun _ t ht => ht

/-! ## The `except` clauses -/

/-- The first exception is not misrecorded, and if there is a worker bug to record the
handler has raised it. -/
structure Rightly (bug : Bool) (h : WorkerHistory) : Prop where
  settled : Proceeding h
  raised : bug = true → ∃ y ∈ h, HandlerRaised y

theorem Rightly.append {bug : Bool} (hh : Rightly bug h) (more : WorkerHistory) :
    Rightly bug (h ++ more) := by
  refine ⟨hh.settled.append more, fun hbug => ?_⟩
  obtain ⟨y, hy, hraised⟩ := hh.raised hbug
  exact ⟨y, List.mem_append_left _ hy, hraised⟩

theorem Rightly.kept {bug : Bool} (hh : Rightly bug h) : Kept h := Or.inr (Or.inl hh.settled)

/-- The rule for a call after such an exception, and what follows it. -/
theorem rightly_ask {bug : Bool} {α : Type} {c : WorkerCall} {f : c.Reply → Worker α}
    (hh : Rightly bug h) (hbug : c.isWorkerBug = true → bug = true)
    (hf : ∀ a t, Rightly bug t → BugLawful (fun _ t => Rightly bug t) (f a) t) :
    BugLawful (fun _ t => Rightly bug t) (Worker.ask c >>= f) h :=
  Prog.wp_ask_bind (fun hc => Or.inr (hh.raised (hbug hc))) (fun _ _ => hh.append _)
    fun a _ => hf a _ (hh.append _)

/-- What `_record_failure` does once it knows when to retry. -/
def failAt (tenant : TenantContext) (delivery : QueueDelivery) (lease : WorkLease)
    (failureClass : FailureClass) (errorCode : String) (retryAt : Option Timestamp) :
    Worker Bool := do
  let at' ← Worker.clock
  tryCatch (do
      let _terminal ← Worker.ask (.fail tenant delivery lease at' failureClass errorCode retryAt)
      pure true)
    fun e => if e.isFencingError then pure false else throw e

theorem recordFailure_eq {failureClass : FailureClass} {errorCode : String} :
    recordFailure settings tenant delivery lease failureClass errorCode =
      if failureClass = .retryable ∨ failureClass = .timeout then do
        let now ← Worker.clock
        failAt tenant delivery lease failureClass errorCode
          (some (now + settings.delay lease.attempt))
      else failAt tenant delivery lease failureClass errorCode none := by
  unfold recordFailure failAt
  split <;> rfl

variable (settings tenant delivery lease) in
theorem recordFailure_rightly {failureClass : FailureClass} {errorCode : String}
    (hh : Rightly (failureClass = .workerBug) h) :
    BugLawful (fun _ t => Rightly (failureClass = .workerBug) t)
      (recordFailure settings tenant delivery lease failureClass errorCode) h := by
  have hfail : ∀ t retryAt, Rightly (failureClass = .workerBug) t →
      BugLawful (fun _ t => Rightly (failureClass = .workerBug) t)
        (failAt tenant delivery lease failureClass errorCode retryAt) t := by
    intro t retryAt ht
    refine rightly_ask ht (fun hc => (by cases hc)) fun at' t ht => Prog.wp_handle _ ?_
    refine Prog.wp_ask_bind (fun hc => Or.inr (ht.raised hc)) (fun e _ => ?_) fun _ _ => ht.append _
    dsimp only
    split
    · exact ht.append _
    · exact ht.append _
  rw [recordFailure_eq]
  split
  · exact rightly_ask hh (fun hc => (by cases hc)) fun now t ht => hfail t _ ht
  · exact hfail h none hh

/-- A worker bug is recorded for what the handler did not raise. -/
theorem recordFailure_blamed {errorCode : String} (hfirst : First Misrecorded h)
    (hinnocent : ∀ y ∈ h, ¬ HandlerRaised y) :
    BugLawful (fun _ t => Blamed t)
      (recordFailure settings tenant delivery lease .workerBug errorCode) h := by
  have hcalls : ∀ (t : WorkerHistory) (c : WorkerCall) (r : Except Thrown c.Reply),
      (∀ y ∈ t, ¬ HandlerRaised y) → c.isAttempt = false →
        ∀ y ∈ t ++ [⟨c, r⟩], ¬ HandlerRaised y := by
    intro t c r ht hc y hy
    rcases List.mem_append.1 hy with hy | hy
    · exact ht y hy
    · rw [List.mem_singleton.1 hy]
      exact not_handlerRaised (ne_execute_of_isAttempt hc) r
  have hblamed : ∀ (t : WorkerHistory) (c : WorkerCall) (r : Except Thrown c.Reply),
      First Misrecorded t → (∀ y ∈ t, ¬ HandlerRaised y) → c.isAttempt = false →
        c.isWorkerBug = true → Blamed (t ++ [⟨c, r⟩]) := fun t c r hfirst ht hc hbug =>
    ⟨hfirst.append _, ⟨_, List.mem_append_right _ (List.mem_singleton.2 rfl), hbug⟩,
      hcalls t c r ht hc⟩
  rw [recordFailure_eq, if_neg (by decide)]
  refine Prog.wp_ask_bind (bugRule_other rfl) (fun e he => (by cases he)) fun at' _ => ?_
  have hfirst' := hfirst.append [⟨.clock, .ok at'⟩]
  have hinnocent' := hcalls h .clock (.ok at') hinnocent rfl
  refine Prog.wp_handle _ (Prog.wp_ask_bind (fun _ => Or.inl hfirst') (fun e _ => ?_) fun _ _ => ?_)
  · dsimp only
    split
    · exact hblamed _ _ _ hfirst' hinnocent' rfl rfl
    · exact hblamed _ _ _ hfirst' hinnocent' rfl rfl
  · exact hblamed _ _ _ hfirst' hinnocent' rfl rfl

variable (settings tenant delivery lease) in
/-- What is recorded as a worker bug, and under which code. -/
theorem handleFailure_recordsBug {e : Thrown} (he : e.recordsBug = true) :
    ∃ errorCode, handleFailure settings tenant delivery lease e =
      recordFailure settings tenant delivery lease .workerBug errorCode := by
  cases e with
  | timeoutError | cancelledError => cases he
  | workerExecutionError failureClass code =>
    have hclass : failureClass = .workerBug := of_decide_eq_true he
    subst hclass
    exact ⟨code, rfl⟩
  | raised e =>
    cases e with
    | fencingError => cases he
    | _ => exact ⟨_, rfl⟩
  | other name => exact ⟨_, rfl⟩

theorem recordCancel_rightly {bug : Bool} (hh : Rightly bug h) :
    BugLawful (fun _ t => Rightly bug t) (recordCancel tenant delivery lease) h :=
  rightly_ask hh (fun hc => (by cases hc)) fun _ _ ht =>
    rightly_ask ht (fun hc => (by cases hc)) fun _ _ ht => ht

/-- The other clauses, after an exception that is not misrecorded. -/
theorem handleFailure_rightly {e : Thrown} (he : e.recordsBug = false) (hh : Rightly false h) :
    BugLawful (fun _ t => Rightly false t) (handleFailure settings tenant delivery lease e) h := by
  have hrecord : ∀ (failureClass : FailureClass) (errorCode : String),
      failureClass ≠ .workerBug → BugLawful (fun _ t => Rightly false t)
        (recordFailure settings tenant delivery lease failureClass errorCode) h := by
    intro failureClass errorCode hclass
    have hfalse : decide (failureClass = .workerBug) = false := decide_eq_false hclass
    rw [← hfalse] at hh ⊢
    exact recordFailure_rightly settings tenant delivery lease hh
  cases e with
  | timeoutError => exact hrecord .timeout _ (by decide)
  | cancelledError => exact hh
  | workerExecutionError failureClass code =>
    have hclass : failureClass ≠ .workerBug := of_decide_eq_false he
    show BugLawful _ (if failureClass = .cancelled then _ else _) h
    split
    · refine rightly_ask hh (fun hc => (by cases hc)) fun requested t ht => ?_
      cases requested with
      | true => exact recordCancel_rightly ht
      | false => exact ht
    · exact hrecord failureClass code hclass
  | raised e =>
    cases e with
    | fencingError =>
      refine rightly_ask hh (fun hc => (by cases hc)) fun requested t ht => ?_
      cases requested with
      | false => exact ht
      | true =>
        refine Prog.wp_handle _ (Prog.wp_mono (fun o u hu => ?_) _ (recordCancel_rightly ht))
        cases o with
        | ok b => exact hu
        | error e =>
          dsimp only
          split
          · exact hu
          · exact hu
    | _ => cases he
  | other name => cases he

theorem handleFailure_kept {e : Thrown} (he : AttemptEnd (.error e) h) :
    BugLawful (fun _ t => Kept t) (handleFailure settings tenant delivery lease e) h := by
  rcases he with ⟨hbug, hfirst, hinnocent⟩ | ⟨hsettled, hraised⟩
  · obtain ⟨code, heq⟩ := handleFailure_recordsBug settings tenant delivery lease hbug
    rw [heq]
    exact Prog.wp_mono (fun _ _ ht => Or.inr (Or.inr ht)) _ (recordFailure_blamed hfirst hinnocent)
  · cases hbug : e.recordsBug with
    | false =>
      refine Prog.wp_mono (fun _ _ ht => ht.kept) _ (handleFailure_rightly hbug ⟨hsettled, ?_⟩)
      exact fun h => (by cases h)
    | true =>
      obtain ⟨code, heq⟩ := handleFailure_recordsBug settings tenant delivery lease hbug
      rw [heq]
      exact Prog.wp_mono (fun _ _ ht => ht.kept) _
        (recordFailure_rightly settings tenant delivery lease ⟨hsettled, fun _ => hraised hbug⟩)

theorem attempted_kept (hh : Clean h) :
    BugLawful (fun _ t => Kept t) (tryCatch (attempt tenant delivery lease)
      (handleFailure settings tenant delivery lease)) h := by
  refine Prog.wp_handle _ (Prog.wp_mono (fun o t ht => ?_) _ (attempt_ends hh))
  cases o with
  | ok durable => exact Or.inl ht
  | error e => exact handleFailure_kept ht

/-! ## The whole delivery -/

/-- A claim is answered with nothing raised so far. -/
def ClaimEnd (o : Except Thrown (Option (Option WorkLease))) (t : WorkerHistory) : Prop :=
  Kept t ∧ ∀ answer, o = .ok (some answer) → Clean t

theorem claimDelivery_ends {startedAt : Timestamp} (hh : Clean h) :
    BugLawful ClaimEnd (claimDelivery settings tenant delivery startedAt) h := by
  -- what the `except` clauses do
  have hrefused : ∀ (e : Thrown) (t : WorkerHistory), Kept t → BugLawful ClaimEnd
      (if e.isValueError then do
          let _ ← Worker.ask (.quarantine delivery "authoritative_delivery_rejected")
          pure none
        else if e.isConcurrencyError then do
          acknowledgeComplete tenant delivery
          pure none
        else throw e) t := by
    intro e t ht
    split
    · exact Prog.wp_ask_bind (bugRule_other rfl)
        (fun _ _ => ⟨ht.append rfl _, fun _ h => (by cases h)⟩)
        fun _ _ => ⟨ht.append rfl _, fun _ h => (by cases h)⟩
    · split
      · refine Prog.wp_bind _ (Prog.wp_mono (fun o u hu => ?_) _ (acknowledgeComplete_kept ht))
        cases o with
        | ok a => exact ⟨hu, fun _ h => (by cases h)⟩
        | error e => exact ⟨hu, fun _ h => (by cases h)⟩
      · exact ⟨ht, fun _ h => (by cases h)⟩
  have hcall : ∀ (t : WorkerHistory) (c : WorkerCall) (a : c.Reply), Clean t →
      c.isAttempt = false → Clean (t ++ [⟨c, .ok a⟩]) := fun t c a ht hc =>
    ht.append (not_raises_ok (ne_execute_of_isAttempt hc) a)
  refine Prog.wp_handle _ ?_
  refine Prog.wp_ask_bind (bugRule_other rfl) (fun e _ => hrefused e _ ?_) fun published _ => ?_
  · exact Kept.append (Or.inl hh) rfl _
  have h₁ := hcall h (.markPublished tenant delivery startedAt) published hh rfl
  refine Prog.wp_ask_bind (bugRule_other rfl) (fun e _ => hrefused e _ ?_) fun quota _ => ?_
  · exact Kept.append (Or.inl h₁) rfl _
  have h₂ := hcall _ (.quota tenant) quota h₁ rfl
  refine Prog.wp_ask_bind (bugRule_other rfl) (fun e _ => hrefused e _ ?_) fun claimed _ => ?_
  · exact Kept.append (Or.inl h₂) rfl _
  have h₃ := hcall _ (.claim tenant delivery settings.workerId startedAt
    (startedAt + settings.leaseDuration) quota) claimed h₂ rfl
  exact ⟨Or.inl h₃, fun _ _ => h₃⟩

theorem process_kept (settings : WorkerSettings) (delivery : QueueDelivery) :
    BugLawful (fun _ t => Kept t) (process settings delivery) [] := by
  have hempty : Clean [] := fun x hx => (by cases hx)
  unfold process
  split
  case isFalse => exact kept_call rfl rfl (Or.inl hempty)
  case isTrue htenant =>
    refine Prog.wp_ask_bind (bugRule_other rfl) (fun e he => (by cases he)) fun startedAt _ => ?_
    have h₁ : Clean [⟨.clock, .ok startedAt⟩] :=
      hempty.append (not_raises_ok (fun _ _ _ h => (by cases h)) startedAt)
    refine Prog.wp_ask_bind (bugRule_other rfl) (fun _ _ => ?_) fun complete _ => ?_
    · exact Kept.append (Or.inl h₁) rfl _
    have h₂ := h₁.append (x := ⟨.deliveryComplete ⟨delivery.envelope.tenantId, htenant⟩
      delivery.envelope.workId, .ok complete⟩)
      (not_raises_ok (fun _ _ _ h => (by cases h)) complete)
    cases complete with
    | true => exact kept_call rfl rfl (Or.inl h₂)
    | false =>
      refine Prog.wp_bind _ (Prog.wp_mono (fun o t ht => ?_) _ (claimDelivery_ends h₂))
      cases o with
      | error e => exact ht.1
      | ok answer =>
        cases answer with
        | none => exact ht.1
        | some answer =>
          cases answer with
          | none => exact acknowledgeComplete_kept ht.1
          | some lease =>
            refine Prog.wp_bind _ (Prog.wp_mono (fun o u hu => ?_) _ (attempted_kept (ht.2 _ rfl)))
            cases o with
            | error e => exact hu
            | ok durable =>
              cases durable with
              | false => exact hu
              | true => exact kept_call rfl rfl hu

theorem first_misrecorded : First Misrecorded h ↔ First StoreFault h ∨ First ClassifiedBug h := by
  constructor
  · rintro ⟨before, x, later, heq, hbefore, hraises, hx | hx⟩
    · exact Or.inl ⟨before, x, later, heq, hbefore, hraises, hx⟩
    · exact Or.inr ⟨before, x, later, heq, hbefore, hraises, hx⟩
  · rintro (⟨before, x, later, heq, hbefore, hraises, hx⟩ |
      ⟨before, x, later, heq, hbefore, hraises, hx⟩)
    · exact ⟨before, x, later, heq, hbefore, hraises, Or.inl hx⟩
    · exact ⟨before, x, later, heq, hbefore, hraises, Or.inr hx⟩

/-- A worker bug is never retried, whatever time is given. -/
theorem retryTime_workerBug (retryAt : Option Timestamp) (attempt maxAttempts : ℤ) :
    retryTime .workerBug retryAt attempt maxAttempts = none := by
  rw [retryTime, if_neg]
  rintro ⟨h | h, -⟩ <;> cases h

/-- **Whose fault a worker bug is.**  Whatever the handler does and whatever the state store
raises, `_process` records worker bugs for the handler's own exceptions only, exactly when the
first exception of the run is neither a conflict or an outage of the store nor a
`WorkerExecutionError` in which the handler names the class `WORKER_BUG`. -/
theorem worker_bugs_attributed (env : Env WorkerCall WorkerCall.Reply Thrown)
    (henv : ∀ h c, StoreLawful c (env h c)) (settings : WorkerSettings)
    (delivery : QueueDelivery) :
    (∀ before x later, ((process settings delivery).run env []).1 = before ++ x :: later →
      x.1.isWorkerBug = true → ∃ y ∈ before, HandlerRaised y) ↔
    ¬ First StoreFault ((process settings delivery).run env []).1 ∧
      ¬ First ClassifiedBug ((process settings delivery).run env []).1 := by
  have hrule := process_kept settings delivery
  rw [← not_or, ← first_misrecorded]
  constructor
  · intro hattributed hfirst
    rcases Prog.run_outcome henv hrule with hclean | hsettled | hblamed
    · exact hclean.not_first hfirst
    · exact hsettled.not_first hfirst
    · obtain ⟨x, hx, hbug⟩ := hblamed.recorded
      obtain ⟨before, later, heq⟩ := List.append_of_mem hx
      obtain ⟨y, hy, hraised⟩ := hattributed before x later heq hbug
      refine hblamed.innocent y ?_ hraised
      rw [heq]
      exact List.mem_append_left _ hy
  · intro hfirst before x later heq hbug
    have hlawful := Prog.run_lawful henv (process settings delivery) [] fun _ hx => (by cases hx)
    rcases Prog.run_calls hlawful hrule heq hbug with hfirst' | hraised
    · refine absurd ?_ hfirst
      rw [heq]
      exact hfirst'.append _
    · exact hraised

/-- An environment in which `succeed` meets an outage of the store. -/
def outageEnv : Env WorkerCall WorkerCall.Reply Thrown
  | _, .succeed .. => .error (.raised .transientStorageError)
  | h, c => plainEnv (.ok plainResult) (.ok true) h c

theorem outageEnv_lawful (h : WorkerHistory) (c : WorkerCall) : StoreLawful c (outageEnv h c) := by
  cases c with
  | execute =>
    intro beat hbeat
    cases hbeat
  | succeed => rfl
  | _ => trivial

/-- A worker bug is recorded in the run, and the handler had not raised. -/
theorem outage_recorded : ∃ before x later,
    ((process plainSettings (plainDelivery (UUID.ofNat 1))).run outageEnv []).1 =
      before ++ x :: later ∧
    x.1.isWorkerBug = true ∧ ∀ y ∈ before, ¬ HandlerRaised y := by
  let tenant : TenantContext := ⟨"acme", by decide⟩
  let delivery := plainDelivery (UUID.ofNat 1)
  let lease := plainLease (UUID.ofNat 1)
  let claimed : WorkerHistory := [⟨.clock, .ok 0⟩,
    ⟨.deliveryComplete tenant (UUID.ofNat 1), .ok false⟩, ⟨.markPublished tenant delivery 0, .ok ()⟩,
    ⟨.quota tenant, .ok 1⟩,
    ⟨.claim tenant delivery "worker" 0 (0 + seconds 30) 1, .ok (some lease)⟩]
  let executed : Answered WorkerCall WorkerCall.Reply Thrown :=
    ⟨.execute tenant delivery lease, .ok ⟨[], some (.ok plainResult)⟩⟩
  refine ⟨claimed ++ [⟨.clock, .ok 0⟩, ⟨.start tenant delivery lease 0, .ok ()⟩, executed,
    ⟨.cancellationRequested tenant (UUID.ofNat 1), .ok false⟩, ⟨.clock, .ok 0⟩,
    ⟨.succeed tenant delivery lease 0 "artifact:result",
      .error (.raised .transientStorageError)⟩, ⟨.clock, .ok 0⟩],
    ⟨.fail tenant delivery lease 0 .workerBug "unhandled_worker_exception" none, .ok true⟩,
    [⟨.acknowledge delivery, .ok ()⟩], rfl, rfl, ?_⟩
  simp [claimed, executed, HandlerRaised]

theorem worker_bugs_attributed_outage :
    First StoreFault ((process plainSettings (plainDelivery (UUID.ofNat 1))).run outageEnv []).1 ∨
      First ClassifiedBug
        ((process plainSettings (plainDelivery (UUID.ofNat 1))).run outageEnv []).1 := by
  have hiff := worker_bugs_attributed outageEnv outageEnv_lawful plainSettings
    (plainDelivery (UUID.ofNat 1))
  obtain ⟨before, x, later, heq, hbug, hinnocent⟩ := outage_recorded
  by_contra hnone
  obtain ⟨y, hy, hraised⟩ := hiff.2 (not_or.1 hnone) before x later heq hbug
  exact hinnocent y hy hraised

/-- **Work whose handler returned its result is dead-lettered** because recording the outcome
met an outage. -/
theorem finished_dead_lettered :
    (∀ h c, StoreLawful c (outageEnv h c)) ∧
    (∀ h tenant delivery lease, outageEnv h (.execute tenant delivery lease) =
      .ok ⟨[], some (.ok plainResult)⟩) ∧
    ∃ before x later,
      ((process plainSettings (plainDelivery (UUID.ofNat 1))).run outageEnv []).1 =
        before ++ x :: later ∧
      x.1.isWorkerBug = true ∧ (¬ ∃ y ∈ before, HandlerRaised y) ∧
      ∀ retryAt attempt maxAttempts, retryTime .workerBug retryAt attempt maxAttempts = none := by
  obtain ⟨before, x, later, heq, hbug, hinnocent⟩ := outage_recorded
  refine ⟨outageEnv_lawful, fun _ _ _ _ => rfl, before, x, later, heq, hbug, ?_,
    retryTime_workerBug⟩
  rintro ⟨y, hy, hraised⟩
  exact hinnocent y hy hraised

end AegisPlatform
