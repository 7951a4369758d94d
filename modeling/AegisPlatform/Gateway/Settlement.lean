import AegisPlatform.Gateway.Intents

/-!
# One settlement a reservation

What a call tells the repository, whatever it is answered: at most one reservation, then its
attempts and their failures in order, then its settlement.

* `Stage`, `InTurn` — where in a call something is told, and that it is told in its turn.
* `Disturbed` — something has happened that providers and controls do not do.
* `Closed` — how a call ends.
* `complete_tells` — a call tells everything in its turn, and is closed in the end.
-/

namespace AegisPlatform

open Fallible Effects Effects.Prog

namespace ModelGateway

/-- An operation with its answer. -/
abbrev Exchange := Answered GatewayOp GatewayOp.Reply GatewayRaised

/-! ## What is told -/

/-- The stages of a reservation: each attempt and its failure, then the settlement. -/
abbrev Stage := WithTop (Place ×ₗ Bool)

def attemptStage (fallbackIndex attempt : ℕ) : Stage :=
  ((toLex (toLex (fallbackIndex, attempt), false) : Place ×ₗ Bool) : Stage)

def failureStage (fallbackIndex attempt : ℕ) : Stage :=
  ((toLex (toLex (fallbackIndex, attempt), true) : Place ×ₗ Bool) : Stage)

section

variable {fallbackIndex attempt : ℕ}

theorem attemptStage_lt_failureStage :
    attemptStage fallbackIndex attempt < failureStage fallbackIndex attempt :=
  WithTop.coe_lt_coe.2 (Prod.Lex.toLex_lt_toLex.2 (.inr ⟨rfl, Bool.false_lt_true⟩))

theorem failureStage_lt_next :
    failureStage fallbackIndex attempt < attemptStage fallbackIndex (attempt + 1) :=
  WithTop.coe_lt_coe.2 (Prod.Lex.toLex_lt_toLex.2 (.inl place_lt_next))

theorem attemptStage_lt_fallback :
    attemptStage fallbackIndex attempt < attemptStage (fallbackIndex + 1) 0 :=
  WithTop.coe_lt_coe.2 (Prod.Lex.toLex_lt_toLex.2 (.inl place_lt_fallback))

theorem attemptStage_lt_succ :
    attemptStage fallbackIndex attempt < attemptStage fallbackIndex (attempt + 1) :=
  attemptStage_lt_failureStage.trans failureStage_lt_next

theorem attemptStage_lt_top : attemptStage fallbackIndex attempt < ⊤ := WithTop.coe_lt_top _

end

/-- What the repository is told of a reservation: the stage, and the reservation. -/
def told? : GatewayOp → Option (Stage × BudgetReservation)
  | .recordAttempt r _ attempt fallbackIndex _ => some (attemptStage fallbackIndex attempt, r)
  | .recordAttemptFailure r _ _ attempt fallbackIndex _ =>
    some (failureStage fallbackIndex attempt, r)
  | .succeed r .. => some (⊤, r)
  | .recordUsageFailure r .. => some (⊤, r)
  | .fail r .. => some (⊤, r)
  | _ => none

def isReserve : GatewayOp → Bool
  | .reserve .. => true
  | _ => false

/-- A success that was declined. -/
def Declined : Exchange → Prop
  | ⟨.succeed .., .error (.modelGatewayError _)⟩ => True
  | _ => False

def reservation? : Exchange → Option BudgetReservation
  | ⟨.reserve .., .ok r⟩ => some r
  | _ => none

/-- The reservations made. -/
def reservations (h : Calls) : List BudgetReservation := h.filterMap reservation?

inductive Settlement where
  | succeeded (response : ModelResponse)
  | failed (error : ModelGatewayError)

/-- What the caller is told of a settlement. -/
def Settlement.outcome : Settlement → Except GatewayRaised ModelResponse
  | succeeded response => .ok response
  | failed error => .error (.modelGatewayError error)

/-- The response that is kept. -/
def Settlement.response? : Settlement → Option ModelResponse
  | succeeded response => some response
  | failed _ => none

def settlement? : Exchange → Option (BudgetReservation × Settlement)
  | ⟨.succeed r response _ _, .ok _⟩ => some (r, .succeeded response)
  | ⟨.recordUsageFailure r _ _ error _, .ok _⟩ => some (r, .failed error)
  | ⟨.fail r error _, .ok _⟩ => some (r, .failed error)
  | _ => none

/-- The settlements made. -/
def settlements (h : Calls) : List (BudgetReservation × Settlement) := h.filterMap settlement?

/-- All that has been told is of this reservation, and of earlier stages. -/
structure Told (r : BudgetReservation) (s : Stage) (h : Calls) : Prop where
  reserved : reservations h = [r]
  entries : ∀ x ∈ h, ∀ e, told? x.1 = some e → e.2 = r ∧ (e.1 < s ∨ Declined x)

section

variable (g : ModelGateway) (c : Completion)

/-- What may be told after this history. -/
def InTurn (h : Calls) : GatewayOp → Prop
  | .reserve .. => ∀ x ∈ h, told? x.1 = none ∧ isReserve x.1 = false
  | .recordAttempt r _ attempt fallbackIndex _ =>
    1 ≤ attempt ∧ Told r (attemptStage fallbackIndex attempt) h
  | .recordAttemptFailure r _ _ attempt fallbackIndex _ =>
    1 ≤ attempt ∧ Told r (failureStage fallbackIndex attempt) h
  | .succeed r response pricing _ => Told r ⊤ h ∧ ∃ entry ∈ g.catalog.given,
    entry.pricing = pricing ∧
      g.validator.validateResponse c.request response entry.identity = .ok ()
  | .recordUsageFailure r .. => Told r ⊤ h
  | .fail r .. => Told r ⊤ h
  | _ => True

/-! ## Disturbances -/

/-- The controls, the metrics and the tracer were made for the models of the catalog. -/
structure Configured : Prop where
  controlled : ∀ entry ∈ g.catalog.given, entry.identity ∈ g.controlledModels
  metered : ∀ entry ∈ g.catalog.given, entry.identity ∈ g.meteredModels
  traced : ∀ entry ∈ g.catalog.given, entry.identity ∈ g.tracedModels

/-- An answer that a call is made for: a provider answers or fails with a `ModelGatewayError`, a
circuit may be open, a call or a success may be declined, and nothing else is raised. -/
def Smooth : Exchange → Prop
  | ⟨.reserve _ _ tokenLimit costLimitUsd _ _, .ok r⟩ =>
    r.tokenLimit = tokenLimit ∧ r.costLimitUsd = costLimitUsd
  | ⟨.jitter _ _, .ok seconds⟩ => 0 ≤ seconds ∧ seconds ≤ g.retryPolicy.backoff.maximum
  | ⟨.provide .., .ok response⟩ => 0 ≤ response.latencyMs
  | ⟨.succeed r response pricing _, .ok _⟩ =>
    response.usage.billableTokens ≤ r.tokenLimit ∧ pricing.cost response.usage ≤ r.costLimitUsd
  | ⟨_, .ok _⟩ => True
  | ⟨.completed _, .error _⟩ => True
  | ⟨.reserve .., .error _⟩ => True
  | ⟨.provide .., .error e⟩ => ∃ error, e = .modelGatewayError error
  | ⟨.succeed .., .error e⟩ => ∃ error, e = .modelGatewayError error
  | ⟨.acquireCircuit _, .error e⟩ => e = .circuitOpenError
  | ⟨_, .error _⟩ => False

/-- The gateway is not configured for its catalog, or an answer was not smooth. -/
def Disturbed (h : Calls) : Prop := ¬ Configured g ∨ ∃ x ∈ h, ¬ Smooth g x

/-- How a call ends: before its reservation, with its settlement, or by a disturbance. -/
inductive Closed : Except GatewayRaised ModelResponse → Calls → Prop
  | refused {e : GatewayRaised} {h : Calls} : reservations h = [] → settlements h = [] →
      Closed (.error e) h
  | cached {response : ModelResponse} {at' : Timestamp} {h : Calls} : reservations h = [] →
      settlements h = [] → ⟨.completed at', .ok (some response)⟩ ∈ h → Closed (.ok response) h
  | settled {r : BudgetReservation} {s : Settlement} {h : Calls} : reservations h = [r] →
      settlements h = [(r, s)] → Closed s.outcome h
  | disturbed {e : GatewayRaised} {h : Calls} : Disturbed g h → Closed (.error e) h

/-- The program tells everything in its turn from here on, and it comes to `Q`. -/
abbrev Tells {α : Type} (h : Calls) (p : Calling α) (Q : Except GatewayRaised α → Calls → Prop) :
    Prop :=
  p.wp (fun _ _ => True) (InTurn g c) Q h

/-- Where a call stands that holds a reservation, and what is known then. -/
structure Standing (K : Prop) (r : BudgetReservation) (s : Stage) (h : Calls) : Prop
    extends Told r s h where
  known : Disturbed g h ∨ K

/-- An operation by which nothing is told of a reservation. -/
structure Neutral (op : GatewayOp) : Prop where
  entry : told? op = none
  reserve : isReserve op = false

end

variable {g : ModelGateway} {c : Completion} {K : Prop} {r : BudgetReservation} {s s' : Stage}
  {h : Calls} {α β : Type} {op : GatewayOp}

theorem Disturbed.append (hd : Disturbed g h) (l : Calls) : Disturbed g (h ++ l) :=
  hd.imp_right fun ⟨x, hx, hnot⟩ => ⟨x, List.mem_append_left _ hx, hnot⟩

theorem Disturbed.of_not_smooth {x : Exchange} (hx : ¬ Smooth g x) : Disturbed g (h ++ [x]) :=
  .inr ⟨x, List.mem_append_right _ (List.mem_singleton_self x), hx⟩

theorem Configured.of_not_disturbed (hd : ¬ Disturbed g h) : Configured g :=
  not_not.1 fun hnot => hd (.inl hnot)

theorem Neutral.reservation? (hop : Neutral op) (x : Except GatewayRaised op.Reply) :
    ModelGateway.reservation? ⟨op, x⟩ = none := by
  have hreserve := hop.reserve
  cases op <;> first | rfl | cases hreserve

theorem Neutral.settlement? (hop : Neutral op) (x : Except GatewayRaised op.Reply) :
    ModelGateway.settlement? ⟨op, x⟩ = none := by
  have hentry := hop.entry
  cases op <;> first | rfl | cases hentry

theorem Neutral.inTurn (hop : Neutral op) (h : Calls) : InTurn g c h op := by
  obtain ⟨hentry, hreserve⟩ := hop
  cases op with
  | reserve => cases hreserve
  | _ => first | exact trivial | cases hentry

theorem reservations_append (h l : Calls) :
    reservations (h ++ l) = reservations h ++ reservations l := List.filterMap_append

theorem settlements_append (h l : Calls) :
    settlements (h ++ l) = settlements h ++ settlements l := List.filterMap_append

theorem told?_of_settlement? {x : Exchange} {e : BudgetReservation × Settlement}
    (hx : settlement? x = some e) : told? x.1 = some (⊤, e.1) ∧ ¬ Declined x := by
  obtain ⟨op, a⟩ := x
  cases op <;> cases a <;> cases hx <;> exact ⟨rfl, fun hdeclined => hdeclined⟩

/-- Nothing is settled before its stage. -/
theorem Told.settlements_eq (htold : Told r s h) : settlements h = [] := by
  rw [settlements, List.filterMap_eq_nil_iff]
  intro x hx
  by_contra hsome
  obtain ⟨e, he⟩ := Option.ne_none_iff_exists'.1 hsome
  obtain ⟨hentry, hdeclined⟩ := told?_of_settlement? he
  rcases (htold.entries x hx _ hentry).2 with hlt | hx
  · exact absurd hlt not_top_lt
  · exact hdeclined hx

namespace Standing

theorem mono (hst : Standing g K r s h) (hle : s ≤ s') : Standing g K r s' h := by
  refine ⟨⟨hst.reserved, fun x hx e he => ?_⟩, hst.known⟩
  obtain ⟨hr, hlt⟩ := hst.entries x hx e he
  exact ⟨hr, hlt.imp_left fun hlt => hlt.trans_le hle⟩

/-- More has come to be known. -/
theorem learn (hst : Standing g K r s h) {K' : Prop} (hK' : Disturbed g h ∨ K') :
    Standing g (K ∧ K') r s h :=
  ⟨hst.toTold, or_and_left.2 ⟨hst.known, hK'⟩⟩

/-- Something more has been told of the reservation. -/
theorem tell (hst : Standing g K r s h) {x : Exchange} {t : Stage}
    (hentry : told? x.1 = some (t, r)) (hlt : t < s' ∨ Declined x) (hle : s ≤ s') :
    Standing g K r s' (h ++ [x]) := by
  refine ⟨⟨?_, fun y hy e he => ?_⟩, hst.known.imp_left fun hd => hd.append _⟩
  · have hnone : reservations [x] = [] := by
      obtain ⟨op, a⟩ := x
      cases op <;> first | rfl | cases hentry
    rw [reservations_append, hnone, List.append_nil]
    exact hst.reserved
  · rcases List.mem_append.1 hy with hy | hy
    · exact (hst.mono hle).entries y hy e he
    · rw [List.mem_singleton.1 hy] at he ⊢
      rw [hentry] at he
      cases he
      exact ⟨rfl, hlt⟩

/-- Nothing has been told. -/
theorem neutral (hst : Standing g K r s h) (hop : Neutral op)
    (a : Except GatewayRaised op.Reply) : Standing g K r s (h ++ [⟨op, a⟩]) := by
  refine ⟨⟨?_, fun y hy e he => ?_⟩, hst.known.imp_left fun hd => hd.append _⟩
  · have hnone : reservations [⟨op, a⟩] = [] := by
      rw [reservations, List.filterMap_cons, hop.reservation?]
      rfl
    rw [reservations_append, hnone, List.append_nil]
    exact hst.reserved
  · rcases List.mem_append.1 hy with hy | hy
    · exact hst.entries y hy e he
    · rw [List.mem_singleton.1 hy, hop.entry] at he
      cases he

end Standing

/-! ## What is raised -/

/-- A part that tells nothing, or that tells its own: where it ends, it stands at this stage; it
returns and raises what is said here, unless something was disturbed. -/
def Held (g : ModelGateway) (K : Prop) (r : BudgetReservation) (s : Stage) (V : α → Prop)
    (E : GatewayRaised → Prop) (o : Except GatewayRaised α) (h : Calls) : Prop :=
  Standing g K r s h ∧ (Disturbed g h ∨ match o with
    | .ok a => V a
    | .error e => E e)

def Anything (_ : α) : Prop := True

def Never (_ : GatewayRaised) : Prop := False

def IsGatewayError (e : GatewayRaised) : Prop := ∃ error, e = .modelGatewayError error

section

variable {V : α → Prop} {E : GatewayRaised → Prop}

theorem Held.imp {V' : α → Prop} {E' : GatewayRaised → Prop} {o : Except GatewayRaised α}
    (hheld : Held g K r s V E o h) (hle : s ≤ s') (hV : ∀ a, V a → V' a)
    (hE : ∀ e, E e → E' e) : Held g K r s' V' E' o h := by
  obtain ⟨hst, hresult⟩ := hheld
  refine ⟨hst.mono hle, hresult.imp_right fun hresult => ?_⟩
  cases o with
  | ok a => exact hV a hresult
  | error e => exact hE e hresult

theorem held_pure (hst : Standing g K r s h) {a : α} (ha : V a) :
    Tells g c h (pure a) (Held g K r s V E) :=
  ⟨hst, .inr ha⟩

theorem held_throw (hst : Standing g K r s h) {e : GatewayRaised}
    (he : Disturbed g h ∨ E e) :
    Tells g c h (throw e : Calling α) (Held g K r s V E) :=
  ⟨hst, he⟩

theorem held_check (hst : Standing g K r s h) {x : Except Raised α}
    (hx : Disturbed g h ∨ ∃ a, x = .ok a ∧ V a) :
    Tells g c h (Calling.check x) (Held g K r s V E) := by
  refine wp_ofExcept ⟨hst, hx.imp_right ?_⟩
  rintro ⟨a, rfl, ha⟩
  exact ha

theorem held_ask {V : op.Reply → Prop} (hst : Standing g K r s h) (hop : Neutral op)
    (hV : ∀ a, Smooth g ⟨op, .ok a⟩ → V a) (hE : ∀ e, Smooth g ⟨op, .error e⟩ → E e) :
    Tells g c h (ask op) (Held g K r s V E) := by
  refine ⟨hop.inTurn h, fun x _ => wp_ofExcept ⟨hst.neutral hop x, ?_⟩⟩
  by_cases hx : Smooth g ⟨op, x⟩
  · refine .inr ?_
    cases x with
    | ok a => exact hV a hx
    | error e => exact hE e hx
  · exact .inl (.of_not_smooth hx)

/-- A part, and what follows it. -/
theorem held_bind {V' : β → Prop} {E' : GatewayRaised → Prop} {p : Calling β}
    {f : β → Calling α} (hp : Tells g c h p (Held g K r s V' E')) (hle : s ≤ s')
    (hE : ∀ e, E' e → E e)
    (hf : ∀ b h', Standing g K r s h' → Disturbed g h' ∨ V' b →
      Tells g c h' (f b) (Held g K r s' V E)) :
    Tells g c h (p >>= f) (Held g K r s' V E) := by
  refine wp_bind p (wp_mono (fun o h' hheld => ?_) p hp)
  cases o with
  | ok b => exact hf b h' hheld.1 hheld.2
  | error e => exact ⟨hheld.1.mono hle, hheld.2.imp_right (hE e)⟩

/-- A part that raises nothing by itself, and what follows it. -/
theorem steady_bind {V' : β → Prop} {p : Calling β} {f : β → Calling α}
    (hp : Tells g c h p (Held g K r s V' Never)) (hle : s ≤ s')
    (hf : ∀ b h', Standing g K r s h' → Disturbed g h' ∨ V' b →
      Tells g c h' (f b) (Held g K r s' V E)) :
    Tells g c h (p >>= f) (Held g K r s' V E) :=
  held_bind hp hle (fun _ => False.elim) hf

/-- An operation that nobody makes fail. -/
theorem steady_ask (hst : Standing g K r s h) (hop : Neutral op)
    (hrough : ∀ e, ¬ Smooth g ⟨op, .error e⟩) :
    Tells g c h (ask op) (Held g K r s Anything E) :=
  held_ask hst hop (fun _ _ => trivial) fun e he => absurd he (hrough e)

/-- What is asked in the end, whatever the outcome was. -/
theorem held_last {o : Except GatewayRaised α} {Q : Except GatewayRaised op.Reply → Calls → Prop}
    (hheld : Held g K r s V E o h) (hop : Neutral op)
    (hrough : ∀ e, ¬ Smooth g ⟨op, .error e⟩) (hok : ∀ a h', Held g K r s V E o h' → Q (.ok a) h')
    (herror : ∀ e h', Held g K r s V E (.error e : Except GatewayRaised α) h' →
      Q (.error e) h') : Tells g c h (ask op) Q := by
  refine ⟨hop.inTurn h, fun x _ => wp_ofExcept ?_⟩
  have hst := hheld.1.neutral hop x
  cases x with
  | ok a => exact hok a _ ⟨hst, hheld.2.imp_left fun hd => hd.append _⟩
  | error e => exact herror e _ ⟨hst, .inl (.of_not_smooth (hrough e))⟩

end

/-! ## Metrics and traces -/

/-- The model is one of the catalog. -/
def Listed (g : ModelGateway) (model : ModelIdentity) : Prop :=
  ∃ entry ∈ g.catalog.given, entry.identity = model

variable {model : ModelIdentity} {E : GatewayRaised → Prop}

theorem disturbed_or_configured (g : ModelGateway) (h : Calls) : Disturbed g h ∨ Configured g :=
  or_iff_not_imp_left.2 Configured.of_not_disturbed

theorem add_ok (hconf : Configured g) (hlisted : Listed g model) {name : String}
    (hname : name ∈ metricNames) {value : ℚ} (hvalue : 0 ≤ value) :
    g.add name model value = .ok () := by
  obtain ⟨entry, hentry, rfl⟩ := hlisted
  have hmetered := hconf.metered entry hentry
  simp only [add, bind_eq_ok, raiseIf_eq_ok]
  exact ⟨(), not_or.2 ⟨not_not.2 hname, not_not.2 hmetered⟩, not_lt.2 hvalue⟩

theorem count_held (hst : Standing g K r s h) (hlisted : Listed g model) {name : String}
    (hname : name ∈ metricNames) :
    Tells g c h (g.count name model) (Held g K r s Anything E) :=
  held_check hst ((disturbed_or_configured g h).imp_right fun hconf =>
    ⟨(), add_ok hconf hlisted hname zero_le_one, trivial⟩)

theorem known_held (hst : Standing g K r s h) (hlisted : Listed g model) :
    Tells g c h (g.known model) (Held g K r s Anything E) := by
  refine held_check hst ((disturbed_or_configured g h).imp_right fun hconf => ⟨(), ?_, trivial⟩)
  obtain ⟨entry, hentry, rfl⟩ := hlisted
  exact raiseIf_eq_ok.2 (not_not.2 (hconf.controlled entry hentry))

theorem traced_held (hst : Standing g K r s h) (hlisted : Listed g model) :
    Tells g c h (g.traced model) (Held g K r s Anything E) := by
  refine held_check hst ((disturbed_or_configured g h).imp_right fun hconf => ⟨(), ?_, trivial⟩)
  obtain ⟨entry, hentry, rfl⟩ := hlisted
  exact raiseIf_eq_ok.2 (not_not.2 (hconf.traced entry hentry))

/-! ## One attempt -/

theorem raiseIfCancelled_held (hst : Standing g K r s h) :
    Tells g c h (raiseIfCancelled c) (Held g K r s Anything IsGatewayError) := by
  refine wp_ite (fun _ => ?_) fun _ => held_pure hst trivial
  refine steady_bind (steady_ask hst ⟨rfl, rfl⟩ fun _ => id) le_rfl fun isSet h₁ hst₁ _ => ?_
  cases isSet with
  | true => exact held_throw hst₁ (.inr ⟨_, rfl⟩)
  | false => exact held_pure hst₁ trivial

theorem acquirePermit_held (hst : Standing g K r s h) (model : ModelIdentity) (deadline : ℚ) :
    Tells g c h (acquirePermit c model deadline)
      (Held g K r s Anything IsGatewayError) := by
  refine held_bind (raiseIfCancelled_held hst) le_rfl (fun _ => id) fun _ h₁ hst₁ _ => ?_
  refine steady_bind (steady_ask hst₁ ⟨rfl, rfl⟩ fun _ => id) le_rfl fun now h₂ hst₂ _ => ?_
  refine wp_ite (fun _ => held_throw hst₂ (.inr ⟨_, rfl⟩)) fun _ => ?_
  refine steady_bind (steady_ask hst₂ ⟨rfl, rfl⟩ fun _ => id) le_rfl fun outcome h₃ hst₃ _ => ?_
  cases outcome with
  | acquired => exact held_pure hst₃ trivial
  | timedOut => exact held_throw hst₃ (.inr ⟨_, rfl⟩)
  | cancelled => exact held_throw hst₃ (.inr ⟨_, rfl⟩)

theorem countFailure_held (hst : Standing g K r s h) (hlisted : Listed g model)
    (error : ModelGatewayError) :
    Tells g c h (g.countFailure model error) (Held g K r s Anything E) := by
  unfold countFailure
  split
  · exact count_held hst hlisted (by decide)
  · exact count_held hst hlisted (by decide)
  · exact held_pure hst trivial

theorem retryDelay_held (hst : Standing g K r s h) (error : ModelGatewayError) {attempt : ℕ}
    (hattempt : 1 ≤ attempt) :
    Tells g c h (g.retryDelay error attempt) (Held g K r s Anything E) := by
  unfold retryDelay
  split
  · exact held_pure hst trivial
  · have hpositive : Tells g c h (Calling.check (raiseIf (attempt < 1)
        (.valueError "attempt must be positive"))) (Held g K r s Anything Never) :=
      held_check hst (.inr ⟨(), raiseIf_eq_ok.2 (not_lt.2 hattempt), trivial⟩)
    refine steady_bind hpositive le_rfl fun _ h₁ hst₁ _ => ?_
    refine steady_bind (held_ask hst₁ ⟨rfl, rfl⟩ (fun seconds hseconds => hseconds) fun _ => id)
      le_rfl fun seconds h₂ hst₂ hseconds => ?_
    refine steady_bind (held_check (V := Anything) hst₂ (hseconds.imp_right fun hbounds => ?_)) le_rfl
      fun _ h₃ hst₃ _ => held_pure hst₃ trivial
    exact ⟨(), raiseIf_eq_ok.2 (not_or.2 ⟨not_lt.2 hbounds.1, not_lt.2 hbounds.2⟩), trivial⟩

theorem waitForRetry_held (hst : Standing g K r s h) (delay : ℚ) :
    Tells g c h (waitForRetry c delay) (Held g K r s Anything E) := by
  refine wp_ite (fun _ => steady_ask hst ⟨rfl, rfl⟩ fun _ => id) fun _ => ?_
  exact steady_bind (steady_ask hst ⟨rfl, rfl⟩ fun _ => id) le_rfl
    fun _ h₁ hst₁ _ => held_pure hst₁ trivial

variable {fallbackIndex attempt : ℕ} {deadline : ℚ}

theorem recordStart_held (hst : Standing g K r (attemptStage fallbackIndex attempt) h)
    (hattempt : 1 ≤ attempt) (model : ModelIdentity) :
    Tells g c h (recordStart r fallbackIndex model attempt)
      (Held g K r (failureStage fallbackIndex attempt) Anything Never) := by
  have hle : attemptStage fallbackIndex attempt ≤ failureStage fallbackIndex attempt :=
    attemptStage_lt_failureStage.le
  refine steady_bind (steady_ask hst ⟨rfl, rfl⟩ fun _ => id) hle fun at' h₁ hst₁ _ => ?_
  refine ⟨⟨hattempt, hst₁.toTold⟩, fun x _ => wp_ofExcept
    ⟨hst₁.tell rfl (.inl attemptStage_lt_failureStage) hle, ?_⟩⟩
  cases x with
  | ok u => exact .inr trivial
  | error e => exact .inl (.of_not_smooth id)

/-- After the failure the next attempt is due, whether it is on record or not. -/
theorem recordFailure_held (hst : Standing g K r (failureStage fallbackIndex attempt) h)
    (hattempt : 1 ≤ attempt) (model : ModelIdentity) (attemptStarted : Bool)
    (error : ModelGatewayError) :
    Tells g c h (recordFailure r fallbackIndex model attempt attemptStarted error)
      (Held g K r (attemptStage fallbackIndex (attempt + 1)) Anything Never) := by
  have hle : failureStage fallbackIndex attempt ≤ attemptStage fallbackIndex (attempt + 1) :=
    failureStage_lt_next.le
  refine wp_ite (fun _ => ?_) fun _ => held_pure (hst.mono hle) trivial
  refine steady_bind (steady_ask hst ⟨rfl, rfl⟩ fun _ => id) hle fun at' h₁ hst₁ _ => ?_
  refine ⟨⟨hattempt, hst₁.toTold⟩, fun x _ => wp_ofExcept
    ⟨hst₁.tell rfl (.inl failureStage_lt_next) hle, ?_⟩⟩
  cases x with
  | ok u => exact .inr trivial
  | error e => exact .inl (.of_not_smooth id)

/-- A response with the time that it took. -/
def Timed (response : ModelResponse) : Prop := 0 ≤ response.latencyMs

/-- What an attempt comes to. -/
def Attempted.Timed (a : Attempted) : Prop :=
  ∀ response, a = .response response → ModelGateway.Timed response

theorem handleError_held (hst : Standing g K r (failureStage fallbackIndex attempt) h)
    (hlisted : Listed g model) (hattempt : 1 ≤ attempt) (attemptStarted : Bool)
    (error : ModelGatewayError) :
    Tells g c h (g.handleError c r deadline fallbackIndex model attempt attemptStarted error)
      (Held g K r (attemptStage fallbackIndex (attempt + 1)) Attempted.Timed Never) := by
  have hstop : ∀ error, Attempted.Timed (.stop error) := fun error response heq => by cases heq
  have hretry : ∀ error, Attempted.Timed (.retry error) := fun error response heq => by cases heq
  have hle : failureStage fallbackIndex attempt ≤ attemptStage fallbackIndex (attempt + 1) :=
    failureStage_lt_next.le
  refine steady_bind (countFailure_held hst hlisted error) hle fun _ h₁ hst₁ _ => ?_
  refine steady_bind (recordFailure_held hst₁ hattempt model attemptStarted error) le_rfl
    fun _ h₂ hst₂ _ => ?_
  refine wp_ite (fun _ => ?_) fun _ => held_pure hst₂ (hstop error)
  refine steady_bind (count_held hst₂ hlisted (by decide)) le_rfl fun _ h₃ hst₃ _ => ?_
  refine steady_bind (retryDelay_held hst₃ error hattempt) le_rfl fun delay h₄ hst₄ _ => ?_
  refine steady_bind (steady_ask hst₄ ⟨rfl, rfl⟩ fun _ => id) le_rfl fun now h₅ hst₅ _ => ?_
  refine wp_ite (fun _ => held_pure hst₅ (hstop error)) fun _ => ?_
  refine steady_bind (waitForRetry_held hst₅ _) le_rfl fun waited h₆ hst₆ _ => ?_
  refine held_pure hst₆ ?_
  split
  · exact hretry error
  · exact hstop retryCancelled

/-- A `ModelGatewayError` is handled, and nothing else is raised unless something was disturbed. -/
theorem handle_held (hst : Standing g K r (failureStage fallbackIndex attempt) h)
    (hlisted : Listed g model) (hattempt : 1 ≤ attempt) (attemptStarted : Bool) {e : GatewayRaised}
    (he : Disturbed g h ∨ IsGatewayError e) :
    Tells g c h (g.handle c r deadline fallbackIndex model attempt attemptStarted e)
      (Held g K r (attemptStage fallbackIndex (attempt + 1)) Attempted.Timed Never) := by
  have hthrow : ∀ e, Disturbed g h → Tells g c h (throw e : Calling Attempted)
      (Held g K r (attemptStage fallbackIndex (attempt + 1)) Attempted.Timed Never) :=
    fun e hd => held_throw (hst.mono failureStage_lt_next.le) (.inl hd)
  rcases he with hd | ⟨error, rfl⟩
  · cases e with
    | modelGatewayError error => exact handleError_held hst hlisted hattempt attemptStarted error
    | raised e => exact hthrow _ hd
    | routing e => exact hthrow _ hd
    | circuitOpenError => exact hthrow _ hd
    | other => exact hthrow _ hd
  · exact handleError_held hst hlisted hattempt attemptStarted error

theorem invoke_held (hst : Standing g K r s h) (hlisted : Listed g model) :
    Tells g c h (g.invoke c model deadline) (Held g K r s Timed IsGatewayError) := by
  refine steady_bind (count_held hst hlisted (by decide)) le_rfl fun _ h₁ hst₁ _ => ?_
  refine steady_bind (steady_ask hst₁ ⟨rfl, rfl⟩ fun _ => id) le_rfl fun now h₂ hst₂ _ => ?_
  dsimp only
  split
  · exact held_throw hst₂ (.inr ⟨_, rfl⟩)
  · refine steady_bind (traced_held hst₂ hlisted) le_rfl fun _ h₃ hst₃ _ => ?_
    exact held_ask hst₃ ⟨rfl, rfl⟩ (fun response hresponse => hresponse) fun e he => he

theorem permitted_held (hst : Standing g K r (attemptStage fallbackIndex attempt) h)
    (hlisted : Listed g model) (hattempt : 1 ≤ attempt) :
    Tells g c h (g.permitted c r deadline fallbackIndex model attempt)
      (Held g K r (attemptStage fallbackIndex (attempt + 1)) Attempted.Timed Never) := by
  refine wp_caught_bind _ (wp_mono (fun o h₁ hheld => ?_) _ (recordStart_held hst hattempt model))
  obtain ⟨hst₁, hresult⟩ := hheld
  cases o with
  | error e => exact handle_held hst₁ hlisted hattempt false (hresult.imp_right False.elim)
  | ok u =>
    refine wp_caught_bind _ (wp_mono (fun o h₂ hheld => ?_) _ (invoke_held hst₁ hlisted))
    obtain ⟨hst₂, hresult⟩ := hheld
    cases o with
    | error e => exact handle_held hst₂ hlisted hattempt true hresult
    | ok response =>
      refine ⟨hst₂.mono failureStage_lt_next.le, hresult.imp_right fun htimed => ?_⟩
      rintro response' heq
      cases heq
      exact htimed

theorem attemptOnce_held (hst : Standing g K r (attemptStage fallbackIndex attempt) h)
    (hlisted : Listed g model) (hattempt : 1 ≤ attempt) :
    Tells g c h (g.attemptOnce c r deadline fallbackIndex model attempt)
      (Held g K r (attemptStage fallbackIndex (attempt + 1)) Attempted.Timed Never) := by
  refine steady_bind (known_held hst hlisted) attemptStage_lt_succ.le fun _ h₁ hst₁ _ => ?_
  refine wp_caught_bind _ (wp_mono (fun o h₂ hheld => ?_) _ (acquirePermit_held hst₁ model deadline))
  obtain ⟨hst₂, hresult⟩ := hheld
  cases o with
  | error e =>
    exact handle_held (hst₂.mono attemptStage_lt_failureStage.le) hlisted hattempt false hresult
  | ok u =>
    refine wp_ensure _ (wp_mono (fun o h₃ hheld => ?_) _ (permitted_held hst₂ hlisted hattempt))
    have hneutral : Neutral (.releaseSemaphore model) := ⟨rfl, rfl⟩
    exact held_last hheld hneutral (fun _ => id) (fun _ _ hheld => hheld) fun _ _ hheld => hheld

/-! ## The attempts on one model -/

/-- The loop of `_try_model`, by induction on the attempts left. -/
theorem attempts_held {n : ℕ} {lastError : Option ModelGatewayError}
    (hst : Standing g K r (attemptStage fallbackIndex attempt) h)
    (hlisted : Listed g model) (hattempt : 1 ≤ attempt) :
    Tells g c h (g.attempts c r deadline fallbackIndex model n attempt lastError)
      (Held g K r (attemptStage (fallbackIndex + 1) 0)
        (fun x => ∀ response, x = .inl response → Timed response) Never) := by
  have hle : ∀ attempt, attemptStage fallbackIndex attempt ≤ attemptStage (fallbackIndex + 1) 0 :=
    fun _ => attemptStage_lt_fallback.le
  induction n generalizing attempt lastError h with
  | zero => exact held_pure (hst.mono (hle attempt)) fun response heq => by cases heq
  | succ n ih =>
    refine steady_bind (known_held hst hlisted) (hle attempt) fun _ h₁ hst₁ _ => ?_
    refine steady_bind (steady_ask hst₁ ⟨rfl, rfl⟩ fun _ => id) (hle attempt)
      fun admitted h₂ hst₂ _ => ?_
    refine wp_ite (fun _ => ?_) fun _ => ?_
    · refine steady_bind (attemptOnce_held hst₂ hlisted hattempt) (hle (attempt + 1))
        fun attempted h₃ hst₃ htimed => ?_
      cases attempted with
      | response response =>
        have htimed' : Held g K r (attemptStage fallbackIndex (attempt + 1))
            (fun x => ∀ response, x = .inl response → Timed response) Never
            (.ok (.inl response) : Except GatewayRaised (ModelResponse ⊕ Option ModelGatewayError))
            h₃ := by
          refine ⟨hst₃, htimed.imp_right fun htimed => ?_⟩
          rintro response' heq
          cases heq
          exact htimed response rfl
        have hneutral : Neutral (.succeedCircuit model) := ⟨rfl, rfl⟩
        exact wp_bind _ (held_last htimed' hneutral (fun _ => id)
          (fun _ _ hheld => hheld.imp (hle _) (fun _ => id) fun _ => id)
          fun _ _ hheld => hheld.imp (hle _) (fun _ => id) fun _ => id)
      | stop error => exact held_pure (hst₃.mono (hle _)) fun response heq => by cases heq
      | retry error => exact ih hst₃ (Nat.succ_pos attempt)
    · exact steady_bind (count_held hst₂ hlisted (by decide)) (hle attempt) fun _ h₃ hst₃ _ =>
        held_pure (hst₃.mono (hle attempt)) fun response heq => by cases heq

theorem enterCircuit_held (hst : Standing g K r s h) (model : ModelIdentity) :
    Tells g c h (enterCircuit model) (Held g K r s Anything (· = .circuitOpenError)) := by
  refine held_bind (held_ask (V := Anything) hst ⟨rfl, rfl⟩ (fun _ _ => trivial) fun e he => he)
    le_rfl (fun _ => id) fun _ h₁ hst₁ _ => ?_
  exact steady_bind (steady_ask hst₁ ⟨rfl, rfl⟩ fun _ => id) le_rfl
    fun state h₂ hst₂ _ => held_pure hst₂ trivial

theorem tellCircuit_held (hst : Standing g K r s h) (model : ModelIdentity)
    (error : ModelGatewayError) :
    Tells g c h (tellCircuit model error) (Held g K r s Anything E) :=
  wp_ite (fun _ => steady_ask hst ⟨rfl, rfl⟩ fun _ => id) fun _ =>
    steady_ask hst ⟨rfl, rfl⟩ fun _ => id

theorem tryModel_held {candidate : ModelCatalogEntry}
    (hst : Standing g K r (attemptStage fallbackIndex 0) h)
    (hcandidate : candidate ∈ g.catalog.given) :
    Tells g c h (g.tryModel c r deadline fallbackIndex candidate)
      (Held g K r (attemptStage (fallbackIndex + 1) 0)
        (fun x => ∀ response, x.1 = some response → Timed response) Never) := by
  have hlisted : Listed g candidate.identity := ⟨candidate, hcandidate, rfl⟩
  have hle : attemptStage fallbackIndex 0 ≤ attemptStage (fallbackIndex + 1) 0 :=
    attemptStage_lt_fallback.le
  refine steady_bind (known_held hst hlisted) hle fun _ h₁ hst₁ _ => ?_
  refine wp_caught_bind _ (wp_mono (fun o h₂ hheld => ?_) _ (enterCircuit_held hst₁ _))
  obtain ⟨hst₂, hresult⟩ := hheld
  rcases o with e | probeAcquired
  · have hthrow : ∀ e, e ≠ GatewayRaised.circuitOpenError → Disturbed g h₂ ∨ e = .circuitOpenError →
        Tells g c h₂ (throw e : Calling (Option ModelResponse × Option ModelGatewayError))
          (Held g K r (attemptStage (fallbackIndex + 1) 0)
            (fun x => ∀ response, x.1 = some response → Timed response) Never) :=
      fun e hne he => held_throw (hst₂.mono hle) (.inl (he.resolve_right hne))
    cases e with
    | circuitOpenError =>
      exact steady_bind (count_held hst₂ hlisted (by decide)) hle fun _ h₃ hst₃ _ =>
        held_pure (hst₃.mono hle) fun response heq => by cases heq
    | modelGatewayError e => exact hthrow _ (fun h => by cases h) hresult
    | raised e => exact hthrow _ (fun h => by cases h) hresult
    | routing e => exact hthrow _ (fun h => by cases h) hresult
    | other => exact hthrow _ (fun h => by cases h) hresult
  · have hdone : Tells g c h₂ ((g.attempts c r deadline fallbackIndex candidate.identity
        g.retryPolicy.maxAttempts 1 none).ensure (if probeAcquired then
          ask (GatewayOp.releaseProbe candidate.identity) else pure ()))
        (Held g K r (attemptStage (fallbackIndex + 1) 0)
          (fun x => ∀ response, x = .inl response → Timed response) Never) := by
      refine wp_ensure _ (wp_mono (fun o h₃ hheld => ?_) _
        (attempts_held (hst₂.mono attemptStage_lt_succ.le) hlisted le_rfl))
      have hneutral : Neutral (.releaseProbe candidate.identity) := ⟨rfl, rfl⟩
      exact wp_ite (fun _ => held_last hheld hneutral (fun _ => id) (fun _ _ hheld => hheld)
        fun _ _ hheld => hheld) fun _ => hheld
    refine steady_bind hdone le_rfl fun x h₃ hst₃ htimed => ?_
    rcases x with response | error | error
    · refine ⟨hst₃, htimed.imp_right fun htimed => ?_⟩
      rintro response' heq
      exact htimed response' (congrArg Sum.inl (Option.some.inj heq))
    · exact held_pure hst₃ fun response heq => by cases heq
    · exact steady_bind (tellCircuit_held hst₃ _ error) le_rfl fun _ h₄ hst₄ _ =>
        held_pure hst₄ fun response heq => by cases heq

/-! ## The settlement -/

theorem Standing.settled (hst : Standing g K r s h) {x : Exchange} {e : Settlement}
    (hx : settlement? x = some (r, e)) :
    reservations (h ++ [x]) = [r] ∧ settlements (h ++ [x]) = [(r, e)] := by
  have hreservation : reservations [x] = [] := by
    obtain ⟨op, a⟩ := x
    cases op <;> cases a <;> first | rfl | cases hx
  have hsettlement : settlements [x] = [(r, e)] := by
    rw [settlements, List.filterMap_cons, hx]
    rfl
  rw [reservations_append, settlements_append, hreservation, hsettlement, hst.settlements_eq,
    hst.reserved]
  exact ⟨rfl, rfl⟩

/-- The limits of the reservation are those of the call. -/
def Limited (c : Completion) (cost : ℚ) (r : BudgetReservation) : Prop :=
  r.tokenLimit = c.tokenLimit ∧ r.costLimitUsd = cost

/-- A response that can be measured: it took its time and stays within the limits. -/
structure Measurable (c : Completion) (cost : ℚ) (candidate : ModelCatalogEntry)
    (response : ModelResponse) : Prop where
  timed : Timed response
  tokens : response.usage.billableTokens ≤ c.tokenLimit
  cost : candidate.pricing.cost response.usage ≤ cost

/-- What the settlement of a response comes to. -/
def AfterSettlement (g : ModelGateway) (c : Completion) (cost : ℚ) (r : BudgetReservation)
    (candidate : ModelCatalogEntry) (response : ModelResponse) :
    Except GatewayRaised Unit → Calls → Prop
  | .ok _, h => (reservations h = [r] ∧ settlements h = [(r, .succeeded response)]) ∧
      (Disturbed g h ∨ Measurable c cost candidate response)
  | .error e, h => Closed g (.error e) h

variable {cost : ℚ}

theorem settleResponse_tells {candidate : ModelCatalogEntry} {response : ModelResponse}
    (hst : Standing g (Limited c cost r ∧ Timed response) r ⊤ h)
    (hcandidate : candidate ∈ g.catalog.given) :
    Tells g c h (g.settleResponse c r candidate response)
      (AfterSettlement g c cost r candidate response) := by
  have hhandler : ∀ (e : GatewayRaised) (h : Calls), Disturbed g h ∨ IsGatewayError e →
      (∀ error, e = .modelGatewayError error →
        Standing g (Limited c cost r ∧ Timed response) r ⊤ h) →
      Tells g c h (recordInvalid r candidate response e)
        (AfterSettlement g c cost r candidate response) := by
    intro e h he hst
    cases e with
    | modelGatewayError error =>
      refine wp_bind _ (wp_mono (fun o h₁ hheld => ?_) _ (steady_ask (E := Never)
        (hst error rfl) ⟨rfl, rfl⟩ fun _ => id))
      obtain ⟨hst₁, hresult⟩ := hheld
      cases o with
      | error e => exact .disturbed (hresult.resolve_right id)
      | ok at' =>
        refine ⟨hst₁.toTold, fun x _ => ?_⟩
        cases x with
        | error e => exact Closed.disturbed (.of_not_smooth id)
        | ok u =>
          obtain ⟨hreserved, hsettled⟩ := hst₁.settled (x := ⟨.recordUsageFailure r response
            candidate.pricing error at', .ok u⟩) (e := .failed error) rfl
          exact Closed.settled hreserved hsettled
    | raised e => exact .disturbed (he.resolve_right fun ⟨_, heq⟩ => by cases heq)
    | routing e => exact .disturbed (he.resolve_right fun ⟨_, heq⟩ => by cases heq)
    | circuitOpenError => exact .disturbed (he.resolve_right fun ⟨_, heq⟩ => by cases heq)
    | other => exact .disturbed (he.resolve_right fun ⟨_, heq⟩ => by cases heq)
  rw [settleResponse_eq]
  refine wp_handle _ (wp_ofExcept_bind (fun e he => ?_) fun _ hvalid => ?_)
  · obtain ⟨error, -, rfl⟩ := mapError_eq_error.1 he
    exact hhandler _ h (.inr ⟨error, rfl⟩) fun _ _ => hst
  refine wp_bind _ (wp_mono (fun o h₁ hheld => ?_) _ (steady_ask (E := Never) hst ⟨rfl, rfl⟩
    fun _ => id))
  obtain ⟨hst₁, hresult⟩ := hheld
  cases o with
  | error e => exact hhandler e h₁ (.inl (hresult.resolve_right id)) fun _ _ => hst₁
  | ok at' =>
    refine ⟨⟨hst₁.toTold, candidate, hcandidate, rfl, mapError_eq_ok.1 hvalid⟩,
      fun x _ => ?_⟩
    cases x with
    | ok u =>
      refine ⟨hst₁.settled (x := ⟨.succeed r response candidate.pricing at', .ok u⟩) rfl, ?_⟩
      rcases hst₁.known with hd | ⟨⟨htokens, hcost⟩, htimed⟩
      · exact .inl (hd.append _)
      · refine or_iff_not_imp_left.2 fun hd => ?_
        have hsmooth : Smooth g ⟨.succeed r response candidate.pricing at', .ok u⟩ :=
          not_not.1 fun hrough => hd (.of_not_smooth hrough)
        exact ⟨htimed, htokens ▸ hsmooth.1, hcost ▸ hsmooth.2⟩
    | error e =>
      refine hhandler e _ ?_ fun error heq => ?_
      · by_cases hsmooth : Smooth g ⟨.succeed r response candidate.pricing at', .error e⟩
        · exact .inr hsmooth
        · exact .inl (.of_not_smooth hsmooth)
      · subst heq
        exact hst₁.tell rfl (.inr trivial) le_rfl

theorem settleFailure_tells (hst : Standing g K r ⊤ h) (lastError : Option ModelGatewayError) :
    Tells g c h (settleFailure r lastError) (Closed g) := by
  refine wp_bind _ (wp_mono (fun o h₁ hheld => ?_) _ (steady_ask (E := Never) hst ⟨rfl, rfl⟩
    fun _ => id))
  obtain ⟨hst₁, hresult⟩ := hheld
  cases o with
  | error e => exact .disturbed (hresult.resolve_right id)
  | ok at' =>
    refine ⟨hst₁.toTold, fun x _ => ?_⟩
    cases x with
    | error e => exact Closed.disturbed (.of_not_smooth id)
    | ok u =>
      obtain ⟨hreserved, hsettled⟩ := hst₁.settled (x := ⟨.fail r (lastError.getD noAttempt) at',
        .ok u⟩) (e := .failed (lastError.getD noAttempt)) rfl
      exact Closed.settled hreserved hsettled

theorem addUsage_ok (hconf : Configured g) (hlisted : Listed g model) (usage : TokenUsage) :
    g.addUsage model usage = .ok () := by
  obtain ⟨h₁, h₂, h₃, h₄, h₅⟩ := usage.valid
  simp only [addUsage, bind_eq_ok]
  exact ⟨(), add_ok hconf hlisted (by decide) (by exact_mod_cast h₁),
    (), add_ok hconf hlisted (by decide) (by exact_mod_cast h₂),
    (), add_ok hconf hlisted (by decide) (by exact_mod_cast h₃),
    (), add_ok hconf hlisted (by decide) (by exact_mod_cast h₄),
    add_ok hconf hlisted (by decide) (by exact_mod_cast h₅)⟩

theorem measure_ok {candidate : ModelCatalogEntry} {response : ModelResponse}
    (hconf : Configured g) (hcandidate : candidate ∈ g.catalog.given)
    (hmeasurable : Measurable c cost candidate response) :
    g.measure c cost candidate response = .ok () := by
  have hlisted : Listed g candidate.identity := ⟨candidate, hcandidate, rfl⟩
  have hlatency : (0 : ℚ) ≤ response.latencyMs := by exact_mod_cast hmeasurable.timed
  have htokens : (0 : ℚ) ≤ ((c.tokenLimit - response.usage.billableTokens : ℤ) : ℚ) := by
    exact_mod_cast sub_nonneg.2 hmeasurable.tokens
  simp only [measure, bind_eq_ok]
  exact ⟨(), addUsage_ok hconf hlisted response.usage,
    (), add_ok hconf hlisted (by decide) hlatency,
    (), add_ok hconf hlisted (by decide) (candidate.pricing.cost_nonneg response.usage),
    (), add_ok hconf hlisted (by decide) htokens,
    add_ok hconf hlisted (by decide) (Decimal.round_nonneg (sub_nonneg.2 hmeasurable.cost))⟩

/-! ## The candidates -/

theorem countFallback_held {candidate : ModelCatalogEntry} (hst : Standing g K r s h)
    (hcandidate : candidate ∈ g.catalog.given) (fallbackIndex : ℕ) :
    Tells g c h (g.countFallback fallbackIndex candidate.identity)
      (Held g K r s Anything E) :=
  wp_ite (fun _ => count_held hst ⟨candidate, hcandidate, rfl⟩ (by decide)) fun _ =>
    held_pure hst trivial

/-- The loop over the candidates, by induction on those left. -/
theorem tryCandidates_tells {rest : List ModelCatalogEntry} {lastError : Option ModelGatewayError}
    (hst : Standing g (Limited c cost r) r (attemptStage fallbackIndex 0) h)
    (hrest : ∀ candidate ∈ rest, candidate ∈ g.catalog.given) :
    Tells g c h (g.tryCandidates c r deadline cost fallbackIndex lastError rest) (Closed g) := by
  induction rest generalizing fallbackIndex lastError h with
  | nil => exact settleFailure_tells (hst.mono le_top) lastError
  | cons candidate rest ih =>
    have hcandidate := hrest candidate List.mem_cons_self
    have hrest' := fun other hother => hrest other (List.mem_cons_of_mem candidate hother)
    refine wp_bind _ (wp_mono (fun o h₁ hheld => ?_) _ (countFallback_held (E := Never) hst hcandidate
      fallbackIndex))
    obtain ⟨hst₁, hresult⟩ := hheld
    cases o with
    | error e => exact .disturbed (hresult.resolve_right id)
    | ok u =>
      refine wp_bind _ (wp_mono (fun o h₂ hheld => ?_) _ (tryModel_held hst₁ hcandidate))
      obtain ⟨hst₂, hresult⟩ := hheld
      rcases o with e | ⟨_ | response, lastError⟩
      · exact .disturbed (hresult.resolve_right id)
      · exact wp_ite (fun _ => ih hst₂ hrest') fun _ =>
          settleFailure_tells (hst₂.mono le_top) lastError
      · refine wp_bind _ (wp_mono (fun o h₃ hafter => ?_) _
          (settleResponse_tells ((hst₂.mono le_top).learn (hresult.imp_right fun htimed =>
            htimed response rfl)) hcandidate))
        cases o with
        | error e => exact hafter
        | ok u =>
          obtain ⟨⟨hreserved, hsettled⟩, hmeasurable⟩ := hafter
          refine wp_ofExcept_bind (fun e he => .disturbed ?_) fun _ _ =>
            Closed.settled (s := .succeeded response) hreserved hsettled
          by_contra hd
          have hok := measure_ok (.of_not_disturbed hd) hcandidate (hmeasurable.resolve_left hd)
          rw [hok] at he
          cases he

/-! ## The call -/

/-- Nothing has been told, and there is no reservation. -/
structure Untold (h : Calls) : Prop where
  reserved : reservations h = []
  entries : ∀ x ∈ h, told? x.1 = none ∧ isReserve x.1 = false

theorem Untold.neutral (hun : Untold h) (hop : Neutral op) (x : Except GatewayRaised op.Reply) :
    Untold (h ++ [⟨op, x⟩]) := by
  refine ⟨?_, fun y hy => ?_⟩
  · rw [reservations_append, hun.reserved, reservations, List.filterMap_cons, hop.reservation?]
    rfl
  · rcases List.mem_append.1 hy with hy | hy
    · exact hun.entries y hy
    · rw [List.mem_singleton.1 hy]
      exact ⟨hop.entry, hop.reserve⟩

theorem Untold.settlements_eq (hun : Untold h) : settlements h = [] := by
  rw [settlements, List.filterMap_eq_nil_iff]
  intro x hx
  by_contra hsome
  obtain ⟨e, he⟩ := Option.ne_none_iff_exists'.1 hsome
  have hentry := (hun.entries x hx).1
  rw [(told?_of_settlement? he).1] at hentry
  cases hentry

theorem Untold.refused (hun : Untold h) (e : GatewayRaised) : Closed g (.error e) h :=
  .refused hun.reserved hun.settlements_eq

theorem Early.neutral (hop : Early op) : Neutral op := by
  cases op <;> first | exact hop.elim | exact ⟨rfl, rfl⟩

theorem tells_early_bind {p : Calling β} {f : β → Calling α}
    {Q : Except GatewayRaised α → Calls → Prop} (hp : p.Asks Early) (hun : Untold h)
    (herror : ∀ e h', Untold h' → Q (.error e) h')
    (hok : ∀ a h', Untold h' → Tells g c h' (f a) Q) : Tells g c h (p >>= f) Q := by
  have hkeeps : Tells g c h p fun _ h' => Untold h' :=
    hp.keeps (fun h _ hop => hop.neutral.inTurn h)
      (fun _ _ x hop hun => hun.neutral hop.neutral x) hun
  refine wp_bind p (wp_mono (fun o h' hun' => ?_) p hkeeps)
  cases o with
  | ok a => exact hok a h' hun'
  | error e => exact herror e h' hun'

/-- What asking for a reservation comes to. -/
def AfterReserve (g : ModelGateway) (c : Completion) (cost : ℚ) :
    Except GatewayRaised BudgetReservation → Calls → Prop
  | .ok r, h => Standing g (Limited c cost r) r (attemptStage 0 0) h
  | .error _, h => reservations h = [] ∧ settlements h = []

theorem reserveBudget_tells (hun : Untold h) (route : ModelRouter.RouteDecision) :
    Tells g c h (g.reserveBudget c route cost) (AfterReserve g c cost) := by
  have hdenied : ∀ (e : GatewayRaised) (h : Calls), reservations h = [] ∧ settlements h = [] →
      Tells g c h (g.countDenial route e) (AfterReserve g c cost) := by
    intro e h hnone
    unfold countDenial
    split
    · exact wp_ofExcept_bind (fun e _ => hnone) fun _ _ => hnone
    · exact hnone
  rw [reserveBudget_eq]
  refine wp_handle _ (tells_early_bind (asks_ask trivial) hun
    (fun e h₁ hun₁ => hdenied e h₁ ⟨hun₁.reserved, hun₁.settlements_eq⟩) fun at' h₁ hun₁ => ?_)
  refine ⟨hun₁.entries, fun x _ => ?_⟩
  cases x with
  | error e =>
    refine hdenied e _ ⟨?_, ?_⟩
    · rw [reservations_append, hun₁.reserved]
      rfl
    · rw [settlements_append, hun₁.settlements_eq]
      rfl
  | ok r =>
    refine ⟨⟨?_, fun x hx e he => ?_⟩, ?_⟩
    · rw [reservations_append, hun₁.reserved]
      rfl
    · rcases List.mem_append.1 hx with hx | hx
      · rw [(hun₁.entries x hx).1] at he
        cases he
      · rw [List.mem_singleton.1 hx] at he
        cases he
    · by_cases hsmooth : Smooth g ⟨.reserve (recordedRoute route) c.policy.quotas c.tokenLimit cost
          route.selected.pricing.version at', .ok r⟩
      · exact .inr hsmooth
      · exact .inl (.of_not_smooth hsmooth)

theorem perform_tells (hun : Untold h) : Tells g c h (g.perform c) (Closed g) := by
  refine tells_early_bind (asks_openCircuits _) hun (fun e h₁ hun₁ => hun₁.refused e)
    fun unavailable h₁ hun₁ => ?_
  have htime : Neutral .time := ⟨rfl, rfl⟩
  refine wp_ask_bind (htime.inTurn h₁) (fun e _ => (hun₁.neutral htime _).refused e)
    fun now _ => ?_
  have hun₂ := hun₁.neutral htime (.ok now)
  refine wp_ofExcept_bind (fun e _ => hun₂.refused e) fun route hroute => ?_
  replace hroute := mapError_eq_ok.1 hroute
  refine wp_ofExcept_bind (fun e _ => hun₂.refused e) fun cost _ => ?_
  refine wp_bind _ (wp_mono (fun o h₃ hafter => ?_) _ (reserveBudget_tells hun₂ route))
  cases o with
  | error e => exact .refused hafter.1 hafter.2
  | ok r =>
    have hselected : Listed g route.selected.identity :=
      ⟨_, ModelRouter.mem_candidates hroute (ModelRouter.selected_mem hroute), rfl⟩
    refine wp_bind _ (wp_mono (fun o h₄ hheld => ?_) _ (count_held (E := Never) hafter hselected
      (by decide)))
    obtain ⟨hst, hresult⟩ := hheld
    cases o with
    | error e => exact .disturbed (hresult.resolve_right id)
    | ok u =>
      exact tryCandidates_tells hst fun candidate hcandidate =>
        ModelRouter.mem_candidates hroute (List.mem_of_mem_take hcandidate)

/-- **A call tells everything in its turn**, and it is closed in the end. -/
theorem complete_tells (g : ModelGateway) (c : Completion) :
    Tells g c [] (g.complete c) (Closed g) := by
  have hun : Untold [] := ⟨rfl, fun x hx => by cases hx⟩
  refine tells_early_bind (asks_ofExcept _) hun (fun e h₁ hun₁ => hun₁.refused e)
    fun _ h₁ hun₁ => ?_
  refine tells_early_bind (asks_ask trivial) hun₁ (fun e h₂ hun₂ => hun₂.refused e)
    fun at' h₂ hun₂ => ?_
  have hcompleted : Neutral (.completed at') := ⟨rfl, rfl⟩
  refine wp_ask_bind (hcompleted.inTurn h₂) (fun e _ => (hun₂.neutral hcompleted _).refused e)
    fun cached _ => ?_
  have hun₃ := hun₂.neutral hcompleted (.ok cached)
  cases cached with
  | some response =>
    exact .cached hun₃.reserved hun₃.settlements_eq
      (List.mem_append_right _ (List.mem_singleton_self _))
  | none => exact perform_tells hun₃

end ModelGateway

end AegisPlatform
