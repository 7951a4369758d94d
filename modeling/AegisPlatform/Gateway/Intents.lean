import AegisPlatform.Gateway.Service
import Mathlib.Data.Finset.Prod
import Mathlib.Order.Interval.Finset.Nat

/-!
# Intent before effect

What the history of a call looks like, whatever the environment answers.

* `events` — the attempts recorded, the providers called, the failures recorded and the
  cancellations seen, in order.
* `Past`, `Ends` — the events before an attempt, and those of a whole call.
* `attemptOnce_leads`, `attempts_leads`, `tryModel_leads`, `tryCandidates_leads` — what each part
  of the call adds to them.
* `intent_before_effect` — the attempts go forward, each call has its own, and no call follows a
  failure that is not on record or may not be retried.
-/

namespace AegisPlatform

open Fallible Effects Effects.Prog

namespace ModelGateway

/-- The calls made so far, with their answers. -/
abbrev Calls := History GatewayOp GatewayOp.Reply GatewayRaised

/-- The place of an attempt: the candidate first, then the number of the attempt. -/
abbrev Place := ℕ ×ₗ ℕ

inductive Event where
  | attempted (place : Place) (model : ModelIdentity)
  | called (model : ModelIdentity) (answer : Except GatewayRaised ModelResponse)
  | failed (place : Place) (error : ModelGatewayError)
  | cancelled

/-- What an answered operation leaves behind. -/
def event? : Answered GatewayOp GatewayOp.Reply GatewayRaised → Option Event
  | ⟨.recordAttempt _ model attempt fallbackIndex _, .ok _⟩ =>
    some (.attempted (toLex (fallbackIndex, attempt)) model)
  | ⟨.provide _ model, answer⟩ => some (.called model answer)
  | ⟨.recordAttemptFailure _ error _ attempt fallbackIndex _, .ok _⟩ =>
    some (.failed (toLex (fallbackIndex, attempt)) error)
  | ⟨.cancellationIsSet, .ok true⟩ => some .cancelled
  | ⟨.acquireSemaphore .., .ok .cancelled⟩ => some .cancelled
  | ⟨.sleepUnlessCancelled _, .ok false⟩ => some .cancelled
  | _ => none

def events (h : Calls) : List Event := h.filterMap event?

/-- The readings of the event loop's clock. -/
def times (h : Calls) : List ℚ :=
  h.filterMap fun
    | ⟨.time, .ok now⟩ => some now
    | _ => none

/-- The places of the attempts recorded. -/
def places (l : List Event) : List Place :=
  l.filterMap fun
    | .attempted place _ => some place
    | _ => none

def isCall : Event → Bool
  | .called .. => true
  | _ => false

theorem places_append (l l' : List Event) : places (l ++ l') = places l ++ places l' :=
  List.filterMap_append

/-! ## The events of a call -/

section

variable (candidates : List ModelIdentity) (maxAttempts : ℕ)

/-- An attempt that may be made on a model. -/
structure Legal (place : Place) (model : ModelIdentity) : Prop where
  candidate : candidates[(ofLex place).1]? = some model
  attempt : 1 ≤ (ofLex place).2 ∧ (ofLex place).2 ≤ maxAttempts

/-- What a failed attempt leaves whose failure may be retried.  One that was late has called no
provider. -/
inductive Failure (place : Place) (model : ModelIdentity) : List Event → Prop
  | late {error : ModelGatewayError} : error.retryable = true →
      Failure place model [.attempted place model, .failed place error]
  | called {error : ModelGatewayError} : error.retryable = true →
      Failure place model [.attempted place model,
        .called model (.error (.modelGatewayError error)), .failed place error]

/-- What lies before an attempt: failed attempts at earlier places. -/
inductive Past : Place → List Event → Prop
  | start {next : Place} : Past next []
  | failure {place next : Place} {model : ModelIdentity} {l block : List Event} :
      Past place l → Legal candidates maxAttempts place model → place < next →
      Failure place model block → Past next (l ++ block)

/-- What the last attempt may leave. -/
inductive Tail (place : Place) (model : ModelIdentity) : List Event → Prop
  | none : Tail place model []
  | cancelled : Tail place model [.cancelled]
  | attempted : Tail place model [.attempted place model]
  | late {error : ModelGatewayError} :
      Tail place model [.attempted place model, .failed place error]
  | called {answer : Except GatewayRaised ModelResponse} :
      Tail place model [.attempted place model, .called model answer]
  | failed {answer : Except GatewayRaised ModelResponse} {error : ModelGatewayError} :
      Tail place model [.attempted place model, .called model answer, .failed place error]

/-- The events of a call. -/
inductive Ends : List Event → Prop
  | past {place : Place} {l : List Event} : Past candidates maxAttempts place l → Ends l
  | tail {place : Place} {model : ModelIdentity} {l l' : List Event} :
      Past candidates maxAttempts place l → Legal candidates maxAttempts place model →
      Tail place model l' → Ends (l ++ l')

variable {candidates maxAttempts} {place next : Place} {model : ModelIdentity} {l l' : List Event}

theorem Past.mono (h : Past candidates maxAttempts place l) (hle : place ≤ next) :
    Past candidates maxAttempts next l := by
  cases h with
  | start => exact .start
  | failure hpast hlegal hlt hblock => exact .failure hpast hlegal (hlt.trans_le hle) hblock

/-- Every call in the past comes right after its attempt, and right before its failure. -/
theorem Past.call (h : Past candidates maxAttempts next l) {before later : List Event}
    {answer : Except GatewayRaised ModelResponse}
    (heq : l = before ++ .called model answer :: later) :
    ∃ place error, before.getLast? = some (.attempted place model) ∧
      answer = .error (.modelGatewayError error) ∧ error.retryable = true ∧
      later.head? = some (.failed place error) := by
  induction h generalizing later with
  | start => simp at heq
  | @failure place _ model' l block _ _ _ hblock ih =>
    rcases List.append_eq_append_iff.1 heq with ⟨more, rfl, hlater⟩ | ⟨more, rfl, hlater⟩
    · -- the call is in the last block
      cases hblock with
      | late hretry => rcases more with _ | ⟨x, _ | ⟨y, more⟩⟩ <;> simp at hlater
      | @called error hretry =>
        rcases more with _ | ⟨x, _ | ⟨y, _ | ⟨z, more⟩⟩⟩ <;> simp at hlater
        obtain ⟨rfl, ⟨rfl, rfl⟩, rfl⟩ := hlater
        exact ⟨place, error, by simp, rfl, hretry, rfl⟩
    · cases more with
      | nil =>
        cases hblock <;> simp at hlater
      | cons x more =>
        rw [List.cons_append, List.cons.injEq] at hlater
        obtain ⟨rfl, rfl⟩ := hlater
        obtain ⟨place', error, hattempt, hanswer, hretry, hfailed⟩ := ih rfl
        refine ⟨place', error, hattempt, hanswer, hretry, ?_⟩
        rw [List.head?_append, hfailed, Option.some_or]

theorem Past.not_cancelled (h : Past candidates maxAttempts next l) : .cancelled ∉ l := by
  induction h with
  | start => simp
  | failure _ _ _ hblock ih => cases hblock <;> simp [ih]

theorem Failure.places_eq (h : Failure place model l) : places l = [place] := by
  cases h <;> rfl

theorem Past.places (h : Past candidates maxAttempts next l) :
    (places l).Pairwise (· < ·) ∧ ∀ place ∈ ModelGateway.places l,
      place < next ∧ ∃ model, Legal candidates maxAttempts place model := by
  induction h with
  | start => simp [ModelGateway.places]
  | @failure place next model l block _ hlegal hlt hblock ih =>
    obtain ⟨hordered, hearlier⟩ := ih
    rw [places_append, hblock.places_eq]
    constructor
    · rw [List.pairwise_append]
      refine ⟨hordered, List.pairwise_singleton _ _, fun a ha b hb => ?_⟩
      rw [List.mem_singleton.1 hb]
      exact (hearlier a ha).1
    · intro a ha
      rcases List.mem_append.1 ha with ha | ha
      · exact ⟨(hearlier a ha).1.trans hlt, (hearlier a ha).2⟩
      · rw [List.mem_singleton.1 ha]
        exact ⟨hlt, model, hlegal⟩

theorem Past.calls_le (h : Past candidates maxAttempts next l) :
    l.countP isCall ≤ (ModelGateway.places l).length := by
  induction h with
  | start => simp
  | failure _ _ _ hblock ih =>
    rw [List.countP_append, places_append, List.length_append]
    refine Nat.add_le_add ih ?_
    cases hblock <;> simp [isCall, List.countP_cons, ModelGateway.places]

theorem Tail.places_eq (h : Tail place model l) :
    ModelGateway.places l = [] ∨ ModelGateway.places l = [place] := by
  cases h <;> simp [ModelGateway.places]

theorem Ends.places (h : Ends candidates maxAttempts l) :
    (ModelGateway.places l).Pairwise (· < ·) ∧
      ∀ place ∈ ModelGateway.places l, ∃ model, Legal candidates maxAttempts place model := by
  cases h with
  | past hpast => exact ⟨hpast.places.1, fun place hplace => (hpast.places.2 place hplace).2⟩
  | @tail place model l l' hpast hlegal htail =>
    obtain ⟨hordered, hearlier⟩ := hpast.places
    rw [places_append]
    rcases htail.places_eq with hnone | hplace
    · rw [hnone, List.append_nil]
      exact ⟨hordered, fun place hplace => (hearlier place hplace).2⟩
    · rw [hplace]
      constructor
      · rw [List.pairwise_append]
        refine ⟨hordered, List.pairwise_singleton _ _, fun a ha b hb => ?_⟩
        rw [List.mem_singleton.1 hb]
        exact (hearlier a ha).1
      · intro a ha
        rcases List.mem_append.1 ha with ha | ha
        · exact (hearlier a ha).2
        · rw [List.mem_singleton.1 ha]
          exact ⟨model, hlegal⟩

theorem Ends.calls_le (h : Ends candidates maxAttempts l) :
    l.countP isCall ≤ (ModelGateway.places l).length := by
  cases h with
  | past hpast => exact hpast.calls_le
  | tail hpast hlegal htail =>
    rw [List.countP_append, places_append, List.length_append]
    refine Nat.add_le_add hpast.calls_le ?_
    cases htail <;> simp [isCall, List.countP_cons, ModelGateway.places]

/-- There are no more calls than places. -/
theorem Ends.calls_le_mul (h : Ends candidates maxAttempts l) :
    l.countP isCall ≤ maxAttempts * candidates.length := by
  obtain ⟨hordered, hlegal⟩ := h.places
  have hnodup : (ModelGateway.places l).Nodup := hordered.imp fun hlt => hlt.ne
  have hsub : (ModelGateway.places l).toFinset ⊆
      (Finset.range candidates.length ×ˢ Finset.Icc 1 maxAttempts).map toLex.toEmbedding := by
    intro place hplace
    obtain ⟨model, hcandidate, hattempt⟩ := hlegal place (List.mem_toFinset.1 hplace)
    have hlt := (List.getElem?_eq_some_iff.1 hcandidate).1
    exact Finset.mem_map.2 ⟨ofLex place, by simp [hlt, hattempt.1, hattempt.2], rfl⟩
  have hcard := Finset.card_le_card hsub
  rw [List.toFinset_card_of_nodup hnodup, Finset.card_map, Finset.card_product, Finset.card_range,
    Nat.card_Icc, Nat.add_sub_cancel, Nat.mul_comm] at hcard
  exact h.calls_le.trans hcard

end

/-! ## Where a call stands -/

section

variable (g : ModelGateway) (c : Completion)

/-- The models a call may go to. -/
def candidateModels (route : ModelRouter.RouteDecision) : List ModelIdentity :=
  (route.candidates.take (g.retryPolicy.maxFailovers + 1)).map (·.identity)

/-- The reservation has been committed. -/
def Reserved (route : ModelRouter.RouteDecision) (reservation : BudgetReservation) (h : Calls) :
    Prop :=
  ∃ cost version at', (⟨.reserve (recordedRoute route) c.policy.quotas c.tokenLimit cost version at',
    .ok reservation⟩ : Answered GatewayOp GatewayOp.Reply GatewayRaised) ∈ h

/-- The route the code has found, with the circuits it has found open. -/
def Routed (route : ModelRouter.RouteDecision) : Prop :=
  ∃ unavailable, ModelRouter.route c.request g.catalog c.policy c.environment unavailable
    c.preference = .ok route

/-- The time is no more than is left until the deadline, which the first reading of the clock
has set. -/
def InTime (timeoutSeconds : ℚ) (h : Calls) : Prop :=
  ∃ started now, (times h).head? = some started ∧ (times h).getLast? = some now ∧
    timeoutSeconds ≤ started + c.request.timeoutSeconds - now

/-- Where a provider may be called: after its attempt. -/
def Intended (h : Calls) : GatewayOp → Prop
  | .provide request model => ∃ route reservation place past, Routed g c route ∧
      Reserved c route reservation h ∧
      Legal (candidateModels g route) g.retryPolicy.maxAttempts place model ∧
      Past (candidateModels g route) g.retryPolicy.maxAttempts place past ∧
      events h = past ++ [.attempted place model] ∧ InTime c request.timeoutSeconds h
  | _ => True

/-- From the history `h` on the program makes its calls as intended, and it comes to `Q`. -/
abbrev Leads {α : Type} (h : Calls) (p : Calling α) (Q : Except GatewayRaised α → Calls → Prop) :
    Prop :=
  p.wp (fun _ _ => True) (Intended g c) Q h

variable (route : ModelRouter.RouteDecision) (reservation : BudgetReservation) (started : ℚ)

/-- A call that has its reservation, and these events. -/
structure At (l : List Event) (h : Calls) : Prop where
  events : events h = l
  started : (times h).head? = some started
  reserved : Reserved c route reservation h

/-- The place is next. -/
def Ready (place : Place) (h : Calls) : Prop :=
  ∃ l, Past (candidateModels g route) g.retryPolicy.maxAttempts place l ∧
    At c route reservation started l h

/-- No provider is called any more. -/
def Ended (h : Calls) : Prop :=
  ∃ l, Ends (candidateModels g route) g.retryPolicy.maxAttempts l ∧
    At c route reservation started l h

/-- An operation that leaves no event behind. -/
def Quiet : GatewayOp → Prop
  | .recordAttempt .. | .provide .. | .recordAttemptFailure .. | .cancellationIsSet |
    .acquireSemaphore .. | .sleepUnlessCancelled _ => False
  | _ => True

variable {g c route reservation started} {l : List Event} {h : Calls} {α β : Type}

theorem events_append (h : Calls) (x : Answered GatewayOp GatewayOp.Reply GatewayRaised) :
    events (h ++ [x]) = events h ++ (event? x).toList := by
  rw [events, List.filterMap_append]
  cases hx : event? x with
  | none => simp [events, hx]
  | some e => simp [events, hx]

theorem Quiet.event?_eq {op : GatewayOp} (hop : Quiet op) (r : Except GatewayRaised op.Reply) :
    event? ⟨op, r⟩ = none := by
  cases op <;> first | exact hop.elim | rfl

theorem At.snoc (hat : At c route reservation started l h)
    (x : Answered GatewayOp GatewayOp.Reply GatewayRaised) :
    At c route reservation started (l ++ (event? x).toList) (h ++ [x]) := by
  refine ⟨by rw [events_append, hat.events], ?_, ?_⟩
  · have hstarted := hat.started
    rw [times, List.filterMap_append, List.head?_append]
    rw [times] at hstarted
    rw [hstarted, Option.some_or]
  · obtain ⟨cost, version, at', hmem⟩ := hat.reserved
    exact ⟨cost, version, at', List.mem_append_left _ hmem⟩

theorem At.event (hat : At c route reservation started l h)
    {x : Answered GatewayOp GatewayOp.Reply GatewayRaised} {e : Event} (hx : event? x = some e) :
    At c route reservation started (l ++ [e]) (h ++ [x]) := by
  have hsnoc := hat.snoc x
  rwa [hx] at hsnoc

theorem At.silent (hat : At c route reservation started l h)
    {x : Answered GatewayOp GatewayOp.Reply GatewayRaised} (hx : event? x = none) :
    At c route reservation started l (h ++ [x]) := by
  have hsnoc := hat.snoc x
  rwa [hx, Option.toList_none, List.append_nil] at hsnoc

theorem Quiet.intended {op : GatewayOp} (hop : Quiet op) (h : Calls) : Intended g c h op := by
  cases op <;> first | exact hop.elim | trivial

/-- What silent answers keep is kept by a part that leaves no event behind. -/
theorem leads_keeps {I : Calls → Prop} (hI : ∀ h x, event? x = none → I h → I (h ++ [x]))
    {p : Calling α} (hp : p.Asks Quiet) (hh : I h) : Leads g c h p fun _ h' => I h' :=
  hp.keeps (fun h _ hop => hop.intended h) (fun h _ r hop hh => hI h _ (hop.event?_eq r) hh) hh

/-- A part that leaves no event behind, and what follows it. -/
theorem leads_keeps_bind {I : Calls → Prop} (hI : ∀ h x, event? x = none → I h → I (h ++ [x]))
    {p : Calling β} {f : β → Calling α} {Q : Except GatewayRaised α → Calls → Prop}
    (hp : p.Asks Quiet) (hh : I h) (herror : ∀ e h', I h' → Q (.error e) h')
    (hok : ∀ a h', I h' → Leads g c h' (f a) Q) : Leads g c h (p >>= f) Q := by
  refine wp_bind p (wp_mono (fun o h' hh' => ?_) p (leads_keeps hI hp hh))
  cases o with
  | ok a => exact hok a h' hh'
  | error e => exact herror e h' hh'

theorem leads_quiet_bind {p : Calling β} {f : β → Calling α}
    {Q : Except GatewayRaised α → Calls → Prop} (hp : p.Asks Quiet)
    (hat : At c route reservation started l h)
    (herror : ∀ e h', At c route reservation started l h' → Q (.error e) h')
    (hok : ∀ a h', At c route reservation started l h' → Leads g c h' (f a) Q) :
    Leads g c h (p >>= f) Q :=
  leads_keeps_bind (fun _ _ hx hat => hat.silent hx) hp hat herror hok

/-- A check leaves the history as it is. -/
theorem leads_check_bind {x : Except Raised β} {f : β → Calling α}
    {Q : Except GatewayRaised α → Calls → Prop} (herror : ∀ e, Q (.error e) h)
    (hok : ∀ a, Leads g c h (f a) Q) : Leads g c h (Calling.check x >>= f) Q := by
  cases x with
  | ok a => exact hok a
  | error e => exact herror _

theorem Ready.ended {place : Place} (hready : Ready g c route reservation started place h) :
    Ended g c route reservation started h :=
  hready.imp fun _ ⟨hpast, hat⟩ => ⟨.past hpast, hat⟩

theorem Ready.silent {place : Place} (hready : Ready g c route reservation started place h)
    {x : Answered GatewayOp GatewayOp.Reply GatewayRaised} (hx : event? x = none) :
    Ready g c route reservation started place (h ++ [x]) :=
  hready.imp fun _ ⟨hpast, hat⟩ => ⟨hpast, hat.silent hx⟩

theorem Ended.silent (hended : Ended g c route reservation started h)
    {x : Answered GatewayOp GatewayOp.Reply GatewayRaised} (hx : event? x = none) :
    Ended g c route reservation started (h ++ [x]) :=
  hended.imp fun _ ⟨hends, hat⟩ => ⟨hends, hat.silent hx⟩

theorem Ready.mono {place place' : Place} (hready : Ready g c route reservation started place h)
    (hle : place ≤ place') : Ready g c route reservation started place' h :=
  hready.imp fun _ ⟨hpast, hat⟩ => ⟨hpast.mono hle, hat⟩

/-! ## One attempt -/

theorem asks_check {P : GatewayOp → Prop} (x : Except Raised α) : (Calling.check x).Asks P :=
  asks_ofExcept _

theorem asks_countFailure (model : ModelIdentity) (error : ModelGatewayError) :
    (g.countFailure model error).Asks Quiet := by
  unfold countFailure
  split
  · exact asks_check _
  · exact asks_check _
  · exact asks_pure _

theorem asks_retryDelay (error : ModelGatewayError) (attempt : ℕ) :
    (g.retryDelay error attempt).Asks Quiet := by
  unfold retryDelay
  split
  · exact asks_pure _
  · exact asks_bind (asks_check _) fun _ => asks_bind (asks_ask trivial) fun _ =>
      asks_bind (asks_check _) fun _ => asks_pure _

theorem raiseIfCancelled_leads (hat : At c route reservation started l h) :
    Leads g c h (raiseIfCancelled c) fun o h' => At c route reservation started l h' ∨
      o = .error (.modelGatewayError concurrencyCancelled) ∧
        At c route reservation started (l ++ [.cancelled]) h' := by
  refine wp_ite (fun _ => ?_) fun _ => ?_
  · refine wp_ask_bind trivial (fun e _ => Or.inl (hat.silent rfl)) fun isSet _ => ?_
    cases isSet with
    | true => exact Or.inr ⟨rfl, hat.event rfl⟩
    | false => exact Or.inl (hat.silent rfl)
  · exact Or.inl hat

/-- Waiting for a permit leaves nothing behind, or a cancellation, which is raised. -/
theorem acquirePermit_leads (hat : At c route reservation started l h) (model : ModelIdentity)
    (deadline : ℚ) :
    Leads g c h (acquirePermit c model deadline) fun o h' => At c route reservation started l h' ∨
      o = .error (.modelGatewayError concurrencyCancelled) ∧
        At c route reservation started (l ++ [.cancelled]) h' := by
  refine wp_bind _ (wp_mono (fun o h₁ hleft => ?_) _ (raiseIfCancelled_leads hat))
  cases o with
  | error e => exact hleft.imp_right fun ⟨he, hat₁⟩ => ⟨by rw [Except.error.inj he], hat₁⟩
  | ok u =>
    have hat₁ : At c route reservation started l h₁ :=
      hleft.resolve_right fun ⟨he, _⟩ => by cases he
    refine leads_quiet_bind (asks_ask trivial) hat₁ (fun e h₂ hat₂ => Or.inl hat₂)
      fun now h₂ hat₂ => ?_
    refine wp_ite (fun _ => ?_) fun _ => ?_
    · exact Or.inl hat₂
    · refine wp_ask_bind trivial (fun e _ => Or.inl (hat₂.silent rfl)) fun outcome _ => ?_
      cases outcome with
      | acquired => exact Or.inl (hat₂.silent rfl)
      | timedOut => exact Or.inl (hat₂.silent rfl)
      | cancelled => exact Or.inr ⟨rfl, hat₂.event rfl⟩

/-- What the end of an attempt means for the events. -/
def AfterAttempt (g : ModelGateway) (c : Completion) (route : ModelRouter.RouteDecision)
    (reservation : BudgetReservation) (started : ℚ) (fallbackIndex attempt : ℕ) :
    Except GatewayRaised Attempted → Calls → Prop
  | .ok (.retry _), h => Ready g c route reservation started (toLex (fallbackIndex, attempt + 1)) h
  | .ok (.stop error), h => Ended g c route reservation started h ∧ (error.retryable = true →
      Ready g c route reservation started (toLex (fallbackIndex, attempt + 1)) h)
  | _, h => Ended g c route reservation started h

variable {fallbackIndex attempt : ℕ} {model : ModelIdentity} {deadline : ℚ}

theorem recordFailure_leads (hat : At c route reservation started l h) (attemptStarted : Bool)
    (error : ModelGatewayError) :
    Leads g c h (recordFailure reservation fallbackIndex model attempt attemptStarted error)
      fun o h' => match o with
        | .ok _ => At c route reservation started (l ++ if attemptStarted then
            [.failed (toLex (fallbackIndex, attempt)) error] else []) h'
        | .error _ => At c route reservation started l h' := by
  unfold recordFailure
  cases attemptStarted with
  | false =>
    show At _ _ _ _ (l ++ []) h
    rwa [List.append_nil]
  | true =>
    refine leads_quiet_bind (asks_ask trivial) hat (fun e h₁ hat₁ => hat₁) fun at' h₁ hat₁ => ?_
    refine ⟨trivial, fun r _ => ?_⟩
    cases r with
    | ok u => exact hat₁.event rfl
    | error e => exact hat₁.silent rfl

/-- Waiting before the next attempt ends early only by a cancellation. -/
theorem waitForRetry_leads (hat : At c route reservation started l h) (delay : ℚ) :
    Leads g c h (waitForRetry c delay) fun o h' => match o with
      | .ok false => At c route reservation started (l ++ [.cancelled]) h'
      | _ => At c route reservation started l h' := by
  refine wp_ite (fun _ => ?_) fun _ => ?_
  · refine ⟨trivial, fun r _ => ?_⟩
    cases r with
    | error e => exact hat.silent rfl
    | ok waited =>
      cases waited with
      | true => exact hat.silent rfl
      | false => exact hat.event rfl
  · exact leads_quiet_bind (asks_ask trivial) hat (fun e h₁ hat₁ => hat₁)
      fun u h₁ hat₁ => hat₁

/-- **Handling a failure** records it, and goes on only after a failure that may be retried. -/
theorem handleError_leads (hat : At c route reservation started l h) (attemptStarted : Bool)
    (error : ModelGatewayError)
    (hends : Ends (candidateModels g route) g.retryPolicy.maxAttempts l)
    (hends' : Ends (candidateModels g route) g.retryPolicy.maxAttempts (l ++ if attemptStarted then
      [.failed (toLex (fallbackIndex, attempt)) error] else []))
    (hpast : error.retryable = true →
      Past (candidateModels g route) g.retryPolicy.maxAttempts (toLex (fallbackIndex, attempt + 1))
        (l ++ if attemptStarted then [.failed (toLex (fallbackIndex, attempt)) error] else []))
    (hcandidate : (candidateModels g route)[fallbackIndex]? = some model) :
    Leads g c h
      (g.handleError c reservation deadline fallbackIndex model attempt attemptStarted error)
      (AfterAttempt g c route reservation started fallbackIndex attempt) := by
  refine leads_quiet_bind (asks_countFailure model error) hat (fun e h₁ hat₁ => ⟨_, hends, hat₁⟩)
    fun u h₁ hat₁ => ?_
  refine wp_bind _ (wp_mono (fun o h₂ hat₂ => ?_) _ (recordFailure_leads hat₁ attemptStarted error))
  cases o with
  | error e => exact ⟨_, hends, hat₂⟩
  | ok u =>
    change At c route reservation started _ h₂ at hat₂
    generalize (l ++ if attemptStarted then [.failed (toLex (fallbackIndex, attempt)) error]
      else []) = l' at hat₂ hends' hpast
    refine wp_ite (fun hretry => ?_) fun _ => ?_
    · obtain ⟨hretryable, hless⟩ := RetryPolicy.mayRetry_iff.1 hretry
      have hpast' := hpast hretryable
      have hlegal : Legal (candidateModels g route) g.retryPolicy.maxAttempts
          (toLex (fallbackIndex, attempt + 1)) model :=
        ⟨hcandidate, Nat.succ_pos attempt, hless⟩
      refine leads_quiet_bind (asks_check _) hat₂ (fun e h₃ hat₃ => ⟨_, hends', hat₃⟩)
        fun u h₃ hat₃ => ?_
      refine leads_quiet_bind (asks_retryDelay error attempt) hat₃
        (fun e h₄ hat₄ => ⟨_, hends', hat₄⟩) fun delay h₄ hat₄ => ?_
      refine leads_quiet_bind (asks_ask trivial) hat₄ (fun e h₅ hat₅ => ⟨_, hends', hat₅⟩)
        fun now h₅ hat₅ => ?_
      refine wp_ite (fun _ => ?_) fun _ => ?_
      · exact ⟨⟨_, hends', hat₅⟩, fun _ => ⟨_, hpast', hat₅⟩⟩
      · refine wp_bind _ (wp_mono (fun o h₆ hat₆ => ?_) _ (waitForRetry_leads hat₅ _))
        cases o with
        | error e => exact ⟨_, hends', hat₆⟩
        | ok waited =>
          cases waited with
          | true => exact ⟨_, hpast', hat₆⟩
          | false =>
            exact ⟨⟨_, .tail hpast' hlegal .cancelled, hat₆⟩, fun hnot => by cases hnot⟩
    · exact ⟨⟨_, hends', hat₂⟩, fun hretryable => ⟨_, hpast hretryable, hat₂⟩⟩

theorem AfterAttempt.ended {o : Except GatewayRaised Attempted}
    (hafter : AfterAttempt g c route reservation started fallbackIndex attempt o h) :
    Ended g c route reservation started h := by
  rcases o with e | response | error | error
  · exact hafter
  · exact hafter
  · exact hafter.1
  · exact Ready.ended hafter

theorem AfterAttempt.silent {o : Except GatewayRaised Attempted}
    (hafter : AfterAttempt g c route reservation started fallbackIndex attempt o h)
    {x : Answered GatewayOp GatewayOp.Reply GatewayRaised} (hx : event? x = none) :
    AfterAttempt g c route reservation started fallbackIndex attempt o (h ++ [x]) := by
  rcases o with e | response | error | error
  · exact Ended.silent hafter hx
  · exact Ended.silent hafter hx
  · exact ⟨hafter.1.silent hx, fun hretryable => (hafter.2 hretryable).silent hx⟩
  · exact Ready.silent hafter hx

/-- What is raised in an attempt and is no `ModelGatewayError` ends the call. -/
theorem handle_leads (hat : At c route reservation started l h) (attemptStarted : Bool)
    (e : GatewayRaised) (hends : Ends (candidateModels g route) g.retryPolicy.maxAttempts l)
    (hends' : ∀ error, Ends (candidateModels g route) g.retryPolicy.maxAttempts
      (l ++ if attemptStarted then [.failed (toLex (fallbackIndex, attempt)) error] else []))
    (hpast : ∀ error, e = .modelGatewayError error → error.retryable = true →
      Past (candidateModels g route) g.retryPolicy.maxAttempts (toLex (fallbackIndex, attempt + 1))
        (l ++ if attemptStarted then [.failed (toLex (fallbackIndex, attempt)) error] else []))
    (hcandidate : (candidateModels g route)[fallbackIndex]? = some model) :
    Leads g c h (g.handle c reservation deadline fallbackIndex model attempt attemptStarted e)
      (AfterAttempt g c route reservation started fallbackIndex attempt) := by
  cases e with
  | modelGatewayError error =>
    exact handleError_leads hat attemptStarted error hends (hends' error) (hpast error rfl) hcandidate
  | raised e => exact ⟨_, hends, hat⟩
  | routing e => exact ⟨_, hends, hat⟩
  | circuitOpenError => exact ⟨_, hends, hat⟩
  | other => exact ⟨_, hends, hat⟩

theorem recordStart_leads (hat : At c route reservation started l h) :
    Leads g c h (recordStart reservation fallbackIndex model attempt) fun o h' => match o with
      | .ok _ => At c route reservation started
          (l ++ [.attempted (toLex (fallbackIndex, attempt)) model]) h'
      | .error _ => At c route reservation started l h' := by
  refine leads_quiet_bind (asks_ask trivial) hat (fun e h₁ hat₁ => hat₁) fun at' h₁ hat₁ => ?_
  refine ⟨trivial, fun r _ => ?_⟩
  cases r with
  | ok u => exact hat₁.event rfl
  | error e => exact hat₁.silent rfl

/-- **A provider is called once its attempt is on record**, and given the time that is left. -/
theorem invoke_leads {past : List Event} (hrouted : Routed g c route)
    (hpast : Past (candidateModels g route) g.retryPolicy.maxAttempts
      (toLex (fallbackIndex, attempt)) past)
    (hlegal : Legal (candidateModels g route) g.retryPolicy.maxAttempts
      (toLex (fallbackIndex, attempt)) model)
    (hat : At c route reservation started
      (past ++ [.attempted (toLex (fallbackIndex, attempt)) model]) h) :
    Leads g c h (g.invoke c model (started + c.request.timeoutSeconds)) fun o h' =>
      (∃ e, o = .error e ∧ At c route reservation started
        (past ++ [.attempted (toLex (fallbackIndex, attempt)) model]) h') ∨
      At c route reservation started
        (past ++ [.attempted (toLex (fallbackIndex, attempt)) model, .called model o]) h' := by
  refine leads_check_bind (fun e => Or.inl ⟨_, rfl, hat⟩) fun _ => ?_
  refine wp_ask_bind trivial (fun e _ => Or.inl ⟨e, rfl, hat.silent rfl⟩) fun now _ => ?_
  have hat₁ := hat.silent (x := ⟨.time, .ok now⟩) rfl
  dsimp only
  split
  · exact Or.inl ⟨_, rfl, hat₁⟩
  · rename_i hleft
    refine leads_check_bind (fun e => Or.inl ⟨_, rfl, hat₁⟩) fun _ => ?_
    refine ⟨⟨route, reservation, _, past, hrouted, hat₁.reserved, hlegal, hpast, hat₁.events,
      started, now, hat₁.started, ?_, min_le_right _ _⟩, fun answer _ => ?_⟩
    · rw [times, List.filterMap_append]
      exact List.getLast?_concat
    · have hcalled := hat₁.event (x := ⟨.provide _ model, answer⟩) rfl
      rw [List.append_assoc] at hcalled
      cases answer with
      | ok response => exact Or.inr hcalled
      | error e => exact Or.inr hcalled

theorem place_lt_next : (toLex (fallbackIndex, attempt) : Place) < toLex (fallbackIndex, attempt + 1) :=
  Prod.Lex.toLex_lt_toLex.2 (Or.inr ⟨rfl, Nat.lt_succ_self attempt⟩)

theorem permitted_leads (hrouted : Routed g c route)
    (hready : Ready g c route reservation started (toLex (fallbackIndex, attempt)) h)
    (hlegal : Legal (candidateModels g route) g.retryPolicy.maxAttempts
      (toLex (fallbackIndex, attempt)) model) :
    Leads g c h (g.permitted c reservation (started + c.request.timeoutSeconds) fallbackIndex model
      attempt) (AfterAttempt g c route reservation started fallbackIndex attempt) := by
  obtain ⟨past, hpast, hat⟩ := hready
  have hpast' := hpast.mono place_lt_next.le
  refine wp_caught_bind _ (wp_mono (fun o h₁ hat₁ => ?_) _ (recordStart_leads hat))
  cases o with
  | error e =>
    refine handle_leads hat₁ false e (.past hpast) (fun error => ?_) (fun error _ _ => ?_)
      hlegal.candidate
    · exact (List.append_nil past).symm ▸ .past hpast
    · exact (List.append_nil past).symm ▸ hpast'
  | ok u =>
    refine wp_caught_bind _
      (wp_mono (fun o h₂ hat₂ => ?_) _ (invoke_leads hrouted hpast hlegal hat₁))
    cases o with
    | ok response =>
      obtain ⟨e, he, -⟩ | hat₂ := hat₂
      · cases he
      · exact ⟨_, .tail hpast hlegal .called, hat₂⟩
    | error e =>
      obtain ⟨e, he, hat₂⟩ | hat₂ := hat₂
      · refine handle_leads hat₂ true _ (.tail hpast hlegal .attempted) (fun error => ?_)
          (fun error _ hretryable => ?_) hlegal.candidate
        · rw [if_pos rfl, List.append_assoc]
          exact .tail hpast hlegal .late
        · rw [if_pos rfl, List.append_assoc]
          exact .failure hpast hlegal place_lt_next (.late hretryable)
      · refine handle_leads hat₂ true _ (.tail hpast hlegal .called) (fun error => ?_)
          (fun error he hretryable => ?_) hlegal.candidate
        · rw [if_pos rfl, List.append_assoc]
          exact .tail hpast hlegal .failed
        · subst he
          rw [if_pos rfl, List.append_assoc]
          exact .failure hpast hlegal place_lt_next (.called hretryable)

theorem attemptOnce_leads (hrouted : Routed g c route)
    (hready : Ready g c route reservation started (toLex (fallbackIndex, attempt)) h)
    (hlegal : Legal (candidateModels g route) g.retryPolicy.maxAttempts
      (toLex (fallbackIndex, attempt)) model) :
    Leads g c h (g.attemptOnce c reservation (started + c.request.timeoutSeconds) fallbackIndex
      model attempt) (AfterAttempt g c route reservation started fallbackIndex attempt) := by
  refine leads_check_bind (fun e => hready.ended) fun _ => ?_
  obtain ⟨past, hpast, hat⟩ := hready
  have hpast' := hpast.mono place_lt_next.le
  refine wp_caught_bind _ (wp_mono (fun o h₁ hat₁ => ?_) _ (acquirePermit_leads hat model _))
  cases o with
  | error e =>
    obtain hat₁ | ⟨he, hat₁⟩ := hat₁
    · refine handle_leads hat₁ false e (.past hpast) (fun error => ?_) (fun error _ _ => ?_)
        hlegal.candidate
      · exact (List.append_nil past).symm ▸ .past hpast
      · exact (List.append_nil past).symm ▸ hpast'
    · cases he
      refine handle_leads hat₁ false _ (.tail hpast hlegal .cancelled) (fun error => ?_)
        (fun error he hretryable => ?_) hlegal.candidate
      · rw [if_neg Bool.false_ne_true, List.append_nil]
        exact .tail hpast hlegal .cancelled
      · cases he
        cases hretryable
  | ok u =>
    have hat₁ : At c route reservation started past h₁ :=
      hat₁.resolve_right fun ⟨he, _⟩ => by cases he
    refine wp_ensure _ (wp_mono (fun o h₂ hafter => ?_) _
      (permitted_leads hrouted ⟨past, hpast, hat₁⟩ hlegal))
    refine ⟨trivial, fun r _ => ?_⟩
    cases r with
    | ok u => exact hafter.silent rfl
    | error e => exact hafter.ended.silent rfl

/-! ## The candidates -/

/-- What the end of the attempts on a model means for the events. -/
def AfterModel (g : ModelGateway) (c : Completion) (route : ModelRouter.RouteDecision)
    (reservation : BudgetReservation) (started : ℚ) (fallbackIndex : ℕ)
    (lastError : Option ModelGatewayError) (h : Calls) : Prop :=
  Ended g c route reservation started h ∧ ((∀ error ∈ lastError, error.retryable = true) →
    Ready g c route reservation started (toLex (fallbackIndex + 1, 0)) h)

theorem AfterModel.of_ready {place : Place}
    (hready : Ready g c route reservation started place h)
    (hlt : place < toLex (fallbackIndex + 1, 0)) (lastError : Option ModelGatewayError) :
    AfterModel g c route reservation started fallbackIndex lastError h :=
  ⟨hready.ended, fun _ => hready.mono hlt.le⟩

theorem AfterModel.silent {lastError : Option ModelGatewayError}
    (hafter : AfterModel g c route reservation started fallbackIndex lastError h)
    {x : Answered GatewayOp GatewayOp.Reply GatewayRaised} (hx : event? x = none) :
    AfterModel g c route reservation started fallbackIndex lastError (h ++ [x]) :=
  ⟨hafter.1.silent hx, fun hretryable => (hafter.2 hretryable).silent hx⟩

theorem place_lt_fallback :
    (toLex (fallbackIndex, attempt) : Place) < toLex (fallbackIndex + 1, 0) :=
  Prod.Lex.toLex_lt_toLex.2 (Or.inl (Nat.lt_succ_self fallbackIndex))

/-- What the end of the loop of `_try_model` means for the events. -/
def AfterLoop (g : ModelGateway) (c : Completion) (route : ModelRouter.RouteDecision)
    (reservation : BudgetReservation) (started : ℚ) (fallbackIndex : ℕ) :
    Except GatewayRaised (ModelResponse ⊕ Option ModelGatewayError) → Calls → Prop
  | .ok (.inr lastError), h => AfterModel g c route reservation started fallbackIndex lastError h
  | _, h => Ended g c route reservation started h

theorem AfterLoop.silent {o : Except GatewayRaised (ModelResponse ⊕ Option ModelGatewayError)}
    (hafter : AfterLoop g c route reservation started fallbackIndex o h)
    {x : Answered GatewayOp GatewayOp.Reply GatewayRaised} (hx : event? x = none) :
    AfterLoop g c route reservation started fallbackIndex o (h ++ [x]) := by
  rcases o with e | response | lastError
  · exact Ended.silent hafter hx
  · exact Ended.silent hafter hx
  · exact AfterModel.silent hafter hx

theorem AfterLoop.ended {o : Except GatewayRaised (ModelResponse ⊕ Option ModelGatewayError)}
    (hafter : AfterLoop g c route reservation started fallbackIndex o h) :
    Ended g c route reservation started h := by
  rcases o with e | response | lastError
  · exact hafter
  · exact hafter
  · exact hafter.1

/-- The loop of `_try_model`, by induction on the attempts left. -/
theorem attempts_leads (hrouted : Routed g c route)
    (hcandidate : (candidateModels g route)[fallbackIndex]? = some model) {n : ℕ}
    {lastError : Option ModelGatewayError}
    (hready : Ready g c route reservation started (toLex (fallbackIndex, attempt)) h)
    (hattempt : 1 ≤ attempt) (hn : attempt + n = g.retryPolicy.maxAttempts + 1) :
    Leads g c h (g.attempts c reservation (started + c.request.timeoutSeconds) fallbackIndex model n
      attempt lastError) (AfterLoop g c route reservation started fallbackIndex) := by
  induction n generalizing attempt lastError h with
  | zero => exact AfterModel.of_ready hready place_lt_fallback lastError
  | succ n ih =>
    refine leads_check_bind (fun e => hready.ended) fun _ => ?_
    refine wp_ask_bind trivial (fun e _ => hready.ended.silent rfl) fun admitted _ => ?_
    have hready₁ := hready.silent (x := ⟨.admitCall model c.tokenLimit, .ok admitted⟩) rfl
    refine wp_ite (fun _ => ?_) fun _ => ?_
    · have hlegal : Legal (candidateModels g route) g.retryPolicy.maxAttempts
          (toLex (fallbackIndex, attempt)) model :=
        ⟨hcandidate, hattempt, show attempt ≤ _ by omega⟩
      refine wp_bind _ (wp_mono (fun o h₂ hafter => ?_) _ (attemptOnce_leads hrouted hready₁ hlegal))
      rcases o with e | response | error | error
      · exact hafter
      · exact wp_ask_bind trivial (fun e _ => hafter.silent rfl) fun _ _ => Ended.silent hafter rfl
      · exact ⟨hafter.1, fun hretryable => (hafter.2 (hretryable error rfl)).mono
          place_lt_fallback.le⟩
      · exact ih hafter (Nat.succ_pos attempt) (by omega)
    · exact leads_check_bind (fun e => hready₁.ended) fun _ =>
        AfterModel.of_ready hready₁ place_lt_fallback _

theorem asks_enterCircuit (model : ModelIdentity) : (enterCircuit model).Asks Quiet :=
  asks_bind (asks_ask trivial) fun _ => asks_bind (asks_ask trivial) fun _ => asks_pure _

theorem asks_tellCircuit (model : ModelIdentity) (error : ModelGatewayError) :
    (tellCircuit model error).Asks Quiet := by
  unfold tellCircuit
  split
  · exact asks_ask trivial
  · exact asks_ask trivial

theorem tryModel_leads {candidate : ModelCatalogEntry} (hrouted : Routed g c route)
    (hcandidate : (candidateModels g route)[fallbackIndex]? = some candidate.identity)
    (hready : Ready g c route reservation started (toLex (fallbackIndex, 0)) h) :
    Leads g c h (g.tryModel c reservation (started + c.request.timeoutSeconds) fallbackIndex
      candidate) fun o h' => match o with
        | .ok (none, lastError) =>
          AfterModel g c route reservation started fallbackIndex lastError h'
        | _ => Ended g c route reservation started h' := by
  refine leads_check_bind (fun e => hready.ended) fun _ => ?_
  refine wp_caught_bind _ (wp_mono (fun o h₁ hready₁ => ?_) _
    (leads_keeps (I := Ready g c route reservation started (toLex (fallbackIndex, 0)))
      (fun _ _ hx hready => hready.silent hx) (asks_enterCircuit _) hready))
  rcases o with e | probeAcquired
  · cases e with
    | circuitOpenError =>
      exact leads_check_bind (fun e => hready₁.ended) fun _ =>
        AfterModel.of_ready hready₁ place_lt_fallback _
    | modelGatewayError e => exact hready₁.ended
    | raised e => exact hready₁.ended
    | routing e => exact hready₁.ended
    | other => exact hready₁.ended
  · have hrelease : (if probeAcquired then ask (GatewayOp.releaseProbe candidate.identity)
        else pure () : Calling Unit).Asks Quiet := by
      split
      · exact asks_ask trivial
      · exact asks_pure _
    refine wp_bind _ (wp_ensure _ (wp_mono (fun o h₂ hafter => ?_) _
      (attempts_leads hrouted hcandidate (hready₁.mono place_lt_next.le) le_rfl (Nat.add_comm _ _))))
    refine wp_mono (fun o' h₃ hafter' => ?_) _
      (leads_keeps (I := AfterLoop g c route reservation started fallbackIndex o)
        (fun _ _ hx hafter => hafter.silent hx) hrelease hafter)
    cases o' with
    | error e => exact hafter'.ended
    | ok u =>
      rcases o with e | response | lastError
      · exact hafter'
      · exact hafter'
      · cases lastError with
        | none => exact hafter'
        | some error =>
          exact leads_keeps_bind
            (I := AfterModel g c route reservation started fallbackIndex (some error))
            (fun _ _ hx hafter => hafter.silent hx) (asks_tellCircuit _ error) hafter'
            (fun e h₄ hafter => hafter.1) fun u h₄ hafter => hafter

theorem asks_settleFailure (lastError : Option ModelGatewayError) :
    (settleFailure reservation lastError).Asks Quiet :=
  asks_bind (asks_ask trivial) fun _ => asks_bind (asks_ask trivial) fun _ => asks_throw _

theorem asks_settleResponse (candidate : ModelCatalogEntry) (response : ModelResponse) :
    (g.settleResponse c reservation candidate response).Asks Quiet := by
  refine asks_handle (asks_bind (asks_ofExcept _) fun _ => asks_bind (asks_ask trivial) fun _ =>
    asks_ask trivial) fun e => ?_
  cases e with
  | modelGatewayError error =>
    exact asks_bind (asks_ask trivial) fun _ => asks_bind (asks_ask trivial) fun _ => asks_throw _
  | raised e => exact asks_throw _
  | routing e => exact asks_throw _
  | circuitOpenError => exact asks_throw _
  | other => exact asks_throw _

/-- The loop over the candidates, by induction on those left. -/
theorem tryCandidates_leads (hrouted : Routed g c route) (reservationCost : ℚ)
    {rest : List ModelCatalogEntry} {lastError : Option ModelGatewayError}
    (hrest : (route.candidates.take (g.retryPolicy.maxFailovers + 1)).drop fallbackIndex = rest)
    (hready : Ready g c route reservation started (toLex (fallbackIndex, 0)) h) :
    Leads g c h (g.tryCandidates c reservation (started + c.request.timeoutSeconds) reservationCost
      fallbackIndex lastError rest) fun _ h' => Ended g c route reservation started h' := by
  have hended : ∀ h : Calls, ∀ x, event? x = none → Ended g c route reservation started h →
      Ended g c route reservation started (h ++ [x]) := fun _ _ hx hended => hended.silent hx
  induction rest generalizing fallbackIndex lastError h with
  | nil => exact leads_keeps hended (asks_settleFailure lastError) hready.ended
  | cons candidate rest ih =>
    have hcandidate : (candidateModels g route)[fallbackIndex]? = some candidate.identity := by
      have hhead := congrArg List.head? hrest
      rw [List.head?_drop] at hhead
      rw [candidateModels, List.getElem?_map, hhead]
      rfl
    have hrest' : (route.candidates.take (g.retryPolicy.maxFailovers + 1)).drop (fallbackIndex + 1) =
        rest := by
      rw [← List.drop_drop, hrest]
      rfl
    have hcount : (g.countFallback fallbackIndex candidate.identity).Asks Quiet := by
      unfold countFallback
      split
      · exact asks_check _
      · exact asks_pure _
    refine leads_keeps_bind (I := Ready g c route reservation started (toLex (fallbackIndex, 0)))
      (fun _ _ hx hready => hready.silent hx) hcount hready (fun e h₁ hready₁ => hready₁.ended)
      fun u h₁ hready₁ => ?_
    refine wp_bind _ (wp_mono (fun o h₂ hafter => ?_) _ (tryModel_leads hrouted hcandidate hready₁))
    rcases o with e | ⟨response, lastError⟩
    · exact hafter
    · cases response with
      | some response =>
        refine leads_keeps_bind hended (asks_settleResponse candidate response) hafter
          (fun e h₃ hended₃ => hended₃) fun u h₃ hended₃ => ?_
        exact leads_check_bind (fun e => hended₃) fun _ => hended₃
      | none =>
        refine wp_ite (fun hretryable => ?_) fun _ => ?_
        · refine ih hrest' (hafter.2 fun error herror => ?_)
          cases herror
          exact hretryable
        · exact leads_keeps hended (asks_settleFailure lastError) hafter.1

/-! ## The call -/

/-- The events of a call, whatever its candidates are. -/
def EndsWell (g : ModelGateway) (h : Calls) : Prop :=
  ∃ candidates : List ModelIdentity, candidates.length ≤ g.retryPolicy.maxFailovers + 1 ∧
    Ends candidates g.retryPolicy.maxAttempts (events h)

theorem EndsWell.of_nil (hevents : events h = []) : EndsWell g h :=
  ⟨[], Nat.zero_le _, hevents ▸ .past (@Past.start _ _ (toLex (0, 0)))⟩

theorem Ended.endsWell (hended : Ended g c route reservation started h) : EndsWell g h := by
  obtain ⟨l, hends, hat⟩ := hended
  refine ⟨candidateModels g route, ?_, hat.events ▸ hends⟩
  rw [candidateModels, List.length_map, List.length_take]
  exact min_le_left _ _

/-- What is asked before the event loop's clock is read. -/
def Early : GatewayOp → Prop
  | .clock | .completed _ | .circuitState _ => True
  | _ => False

theorem asks_openCircuits (entries : List ModelCatalogEntry) :
    (g.openCircuits entries).Asks Early := by
  induction entries with
  | nil => exact asks_pure _
  | cons entry rest ih =>
    exact asks_bind (asks_check _) fun _ => asks_bind (asks_ask trivial) fun _ =>
      asks_bind ih fun _ => asks_pure _

/-- Nothing has happened, and the event loop's clock has not been read. -/
structure Fresh (h : Calls) : Prop where
  events : events h = []
  times : times h = []

theorem Fresh.early (hfresh : Fresh h) {op : GatewayOp} (hop : Early op)
    (r : Except GatewayRaised op.Reply) : Fresh (h ++ [⟨op, r⟩]) := by
  obtain ⟨hevents, htimes⟩ := hfresh
  rw [ModelGateway.times] at htimes
  constructor
  · rw [events_append, hevents]
    cases op <;> first | exact hop.elim | rfl
  · rw [ModelGateway.times, List.filterMap_append, htimes]
    cases op <;> first | exact hop.elim | rfl

theorem leads_early_bind {p : Calling β} {f : β → Calling α}
    {Q : Except GatewayRaised α → Calls → Prop} (hp : p.Asks Early) (hfresh : Fresh h)
    (herror : ∀ e h', Fresh h' → Q (.error e) h')
    (hok : ∀ a h', Fresh h' → Leads g c h' (f a) Q) : Leads g c h (p >>= f) Q := by
  have hkeeps : Leads g c h p fun _ h' => Fresh h' :=
    hp.keeps (fun h op hop => by cases op <;> first | exact hop.elim | trivial)
      (fun _ _ r hop hfresh => hfresh.early hop r) hfresh
  refine wp_bind p (wp_mono (fun o h' hfresh' => ?_) p hkeeps)
  cases o with
  | ok a => exact hok a h' hfresh'
  | error e => exact herror e h' hfresh'

/-- Nothing has happened since the event loop's clock was first read. -/
structure Started (started : ℚ) (h : Calls) : Prop where
  events : events h = []
  started : (times h).head? = some started

theorem Started.silent (hstarted : Started started h)
    {x : Answered GatewayOp GatewayOp.Reply GatewayRaised} (hx : event? x = none) :
    Started started (h ++ [x]) := by
  obtain ⟨hevents, hfirst⟩ := hstarted
  refine ⟨by rw [events_append, hevents, hx]; rfl, ?_⟩
  rw [times, List.filterMap_append, List.head?_append]
  rw [times] at hfirst
  rw [hfirst, Option.some_or]

theorem reserveBudget_leads (hstarted : Started started h) (reservationCost : ℚ) :
    Leads g c h (g.reserveBudget c route reservationCost) fun o h' => match o with
      | .ok reservation => At c route reservation started [] h'
      | .error _ => events h' = [] := by
  have hdenied : ∀ (e : GatewayRaised) (h' : Calls), Started started h' →
      Leads g c h' (g.countDenial route e) fun o h' => match o with
        | .ok reservation => At c route reservation started [] h'
        | .error _ => events h' = [] := by
    intro e h' hstarted'
    unfold countDenial
    split
    · exact leads_check_bind (fun e => hstarted'.events) fun _ => hstarted'.events
    · exact hstarted'.events
  rw [reserveBudget_eq]
  refine wp_handle _ ?_
  refine leads_keeps_bind (I := Started started) (fun _ _ hx hstarted => hstarted.silent hx)
    (asks_ask trivial) hstarted (fun e h₁ hstarted₁ => hdenied e h₁ hstarted₁)
    fun at' h₁ hstarted₁ => ?_
  refine ⟨trivial, fun r _ => ?_⟩
  have hstarted₂ := hstarted₁.silent (x := ⟨.reserve (recordedRoute route) c.policy.quotas
    c.tokenLimit reservationCost route.selected.pricing.version at', r⟩) rfl
  cases r with
  | error e => exact hdenied e _ hstarted₂
  | ok reservation =>
    exact ⟨hstarted₂.events, hstarted₂.started, reservationCost, _, at',
      List.mem_append_right _ (List.mem_singleton_self _)⟩

theorem perform_leads (hfresh : Fresh h) : Leads g c h (g.perform c) fun _ h => EndsWell g h := by
  refine leads_early_bind (asks_openCircuits _) hfresh (fun e h₁ hfresh₁ => .of_nil hfresh₁.events)
    fun unavailable h₁ hfresh₁ => ?_
  refine wp_ask_bind trivial (fun e _ => .of_nil ?_) fun started _ => ?_
  · rw [events_append, hfresh₁.events]
    rfl
  have hstarted : Started started (h₁ ++ [⟨.time, .ok started⟩]) := by
    refine ⟨by rw [events_append, hfresh₁.events]; rfl, ?_⟩
    rw [times, List.filterMap_append, ← times, hfresh₁.times]
    rfl
  cases hroute : ModelRouter.route c.request g.catalog c.policy c.environment unavailable
      c.preference with
  | error e => exact .of_nil hstarted.events
  | ok route =>
    have hrouted : Routed g c route := ⟨unavailable, hroute⟩
    refine leads_check_bind (fun e => .of_nil hstarted.events) fun reservationCost => ?_
    refine wp_bind _ (wp_mono (fun o h₂ hat => ?_) _ (reserveBudget_leads hstarted reservationCost))
    cases o with
    | error e => exact .of_nil hat
    | ok reservation =>
      have hready : Ready g c route reservation started (toLex (0, 0)) h₂ := ⟨[], .start, hat⟩
      refine leads_check_bind (fun e => hready.ended.endsWell) fun _ => ?_
      exact wp_mono (fun _ _ hended => hended.endsWell) _
        (tryCandidates_leads hrouted reservationCost rfl hready)

theorem complete_leads : Leads g c [] (g.complete c) fun _ h => EndsWell g h := by
  have hfresh : Fresh [] := ⟨rfl, rfl⟩
  refine leads_early_bind (asks_ofExcept _) hfresh (fun e h₁ hfresh₁ => .of_nil hfresh₁.events)
    fun u h₁ hfresh₁ => ?_
  refine leads_early_bind (asks_ask trivial) hfresh₁ (fun e h₂ hfresh₂ => .of_nil hfresh₂.events)
    fun at' h₂ hfresh₂ => ?_
  refine leads_early_bind (asks_ask trivial) hfresh₂ (fun e h₃ hfresh₃ => .of_nil hfresh₃.events)
    fun cached h₃ hfresh₃ => ?_
  cases cached with
  | some response => exact .of_nil hfresh₃.events
  | none => exact perform_leads hfresh₃

/-- Is a provider called? -/
def isProvide (x : Answered GatewayOp GatewayOp.Reply GatewayRaised) : Bool :=
  match x.1 with
  | .provide .. => true
  | _ => false

theorem countP_isProvide (h : Calls) : h.countP isProvide = (events h).countP isCall := by
  rw [events, List.countP_filterMap]
  refine List.countP_congr fun x _ => ?_
  obtain ⟨op, r⟩ := x
  cases op with
  | recordAttempt => cases r <;> simp [isProvide, event?, isCall]
  | recordAttemptFailure => cases r <;> simp [isProvide, event?, isCall]
  | cancellationIsSet => rcases r with e | _ | _ <;> simp [isProvide, event?, isCall]
  | acquireSemaphore => rcases r with e | _ | _ | _ <;> simp [isProvide, event?, isCall]
  | sleepUnlessCancelled => rcases r with e | _ | _ <;> simp [isProvide, event?, isCall]
  | _ => simp [isProvide, event?, isCall]

/-- An earlier call has failed, and its failure is on record. -/
theorem Past.earlier {candidates : List ModelIdentity} {maxAttempts : ℕ} {place : Place}
    {past before later : List Event} {answer : Except GatewayRaised ModelResponse}
    (hpast : Past candidates maxAttempts place past) {model' : ModelIdentity}
    (heq : past ++ [.attempted place model] = before ++ .called model' answer :: later) :
    ∃ place error, before.getLast? = some (.attempted place model') ∧
      answer = .error (.modelGatewayError error) ∧ error.retryable = true ∧
      .failed place error ∈ later := by
  rcases List.append_eq_append_iff.1 heq with ⟨more, -, hlater⟩ | ⟨more, hbefore, hlater⟩
  · rcases more with _ | ⟨x, _ | ⟨y, more⟩⟩ <;> simp at hlater
  · cases more with
    | nil => simp at hlater
    | cons x more =>
      rw [List.cons_append, List.cons.injEq] at hlater
      obtain ⟨rfl, rfl⟩ := hlater
      obtain ⟨place', error, hattempt, hanswer, hretryable, hfailed⟩ := hpast.call hbefore
      exact ⟨place', error, hattempt, hanswer, hretryable,
        List.mem_append_left _ (List.mem_of_mem_head? hfailed)⟩

end

/-- **Intent before effect, in order and bounded.**  Before a provider is called, the reservation
and the attempt are on record, and so is the failure of every earlier call, which may be retried;
nothing has been cancelled, and the time allowed is left.  Attempts go forward along the
candidates, and calls are limited. -/
theorem intent_before_effect (g : ModelGateway) (c : Completion)
    (env : Env GatewayOp GatewayOp.Reply GatewayRaised) :
    let history := ((g.complete c).run env []).1
    (∀ before request model answer later,
      history = before ++ ⟨.provide request model, answer⟩ :: later →
      ∃ route reservation fallbackIndex attempt, Routed g c route ∧
        Reserved c route reservation before ∧
        (events before).getLast? = some (.attempted (toLex (fallbackIndex, attempt)) model) ∧
        (candidateModels g route)[fallbackIndex]? = some model ∧ 1 ≤ attempt ∧
        attempt ≤ g.retryPolicy.maxAttempts ∧ InTime c request.timeoutSeconds before ∧
        .cancelled ∉ events before ∧
        ∀ earlier request' model' answer' between,
          before = earlier ++ ⟨.provide request' model', answer'⟩ :: between →
          ∃ place error, (events earlier).getLast? = some (.attempted place model') ∧
            answer' = .error (.modelGatewayError error) ∧ error.retryable = true ∧
            .failed place error ∈ events between) ∧
    (places (events history)).Pairwise (· < ·) ∧
    history.countP isProvide ≤ g.retryPolicy.maxAttempts * (g.retryPolicy.maxFailovers + 1) := by
  intro history
  have hleads : Leads g c [] (g.complete c) fun _ h => EndsWell g h := complete_leads
  obtain ⟨candidates, hlength, hends⟩ : EndsWell g history :=
    run_outcome (fun _ _ => trivial) hleads
  refine ⟨fun before request model answer later hhistory => ?_, hends.places.1, ?_⟩
  · have hintended : Intended g c before (.provide request model) :=
      run_calls (fun _ _ => trivial) hleads (x := ⟨.provide request model, answer⟩) hhistory
    obtain ⟨route, reservation, place, past, hrouted, hreserved, hlegal, hpast, hevents, htime⟩ :=
      hintended
    refine ⟨route, reservation, (ofLex place).1, (ofLex place).2, hrouted, hreserved, ?_,
      hlegal.candidate, hlegal.attempt.1, hlegal.attempt.2, htime, ?_, ?_⟩
    · exact (congrArg List.getLast? hevents).trans List.getLast?_concat
    · intro hcancelled
      rw [hevents, List.mem_append, List.mem_singleton] at hcancelled
      exact hcancelled.elim hpast.not_cancelled fun heq => by cases heq
    · rintro earlier request' model' answer' between rfl
      have hsplit : past ++ [.attempted place model] =
          events earlier ++ .called model' answer' :: events between := by
        rw [← hevents, events, List.filterMap_append]
        rfl
      exact hpast.earlier hsplit
  · rw [countP_isProvide]
    exact hends.calls_le_mul.trans (Nat.mul_le_mul_left _ hlength)

end ModelGateway

end AegisPlatform
