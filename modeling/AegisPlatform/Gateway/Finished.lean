import AegisPlatform.Gateway.Served
import AegisPlatform.Gateway.EventKeys

/-!
# Finished calls

Any number of calls of one gateway over one in-memory repository, with leases that stay valid and
nothing that providers and controls do not do.

* `Steadily` — how such a call is answered.
* `Owned` — every reservation of the repository is one call's, and is active until that call has
  settled it.
* `one_settlement` — a call that has ended has settled its reservation once, and has told its caller
  so; when all have ended, no reservation is active.
-/

namespace AegisPlatform

open Effects Effects.Prog

/-- When the repository is asked. -/
def GatewayOp.asked? : GatewayOp → Option Timestamp
  | completed at' | reserve _ _ _ _ _ at' | recordAttempt _ _ _ _ at' |
    recordAttemptFailure _ _ _ _ _ at' | succeed _ _ _ at' | recordUsageFailure _ _ _ _ at' |
    fail _ _ at' => some at'
  | _ => none

namespace ModelGateway

/-- The lease is valid when the repository is asked, a new reservation has an id of its own, and
what is not the repository's answer is smooth. -/
structure Steadily (g : ModelGateway) (py : PyText) (c : Completion) (op : GatewayOp)
    (r : MemoryRepository) (a : Except GatewayRaised op.Reply) (r' : MemoryRepository) : Prop where
  serves : Serves py c op r a r'
  fresh : ∀ new, reservation? ⟨op, a⟩ = some new → r.reservations.lookup new.reservationId = none
  fenced : ∀ at', op.asked? = some at' → r.requireFence c.lease at' = .ok ()
  smooth : op.asked? = none → Smooth g ⟨op, a⟩

/-- A state that is reached from an empty repository, when every call is answered steadily. -/
def RunsSteadily (g : ModelGateway) (py : PyText) (leases : Table WorkKey WorkLease)
    (s : CallService) : Prop :=
  Service.Reaches g.complete (Steadily g py) Replaces ⟨{ activeLeases := leases }, []⟩ s

/-- **Every reservation is one call's**, which has not settled it as long as it is active. -/
structure Owned (g : ModelGateway) (s : CallService) : Prop where
  smooth : ∀ client ∈ s.clients, ∀ x ∈ client.history, Smooth g x
  context : ∀ client ∈ s.clients, reservations client.history ≠ [] →
    MemoryRepository.validateRequestContext client.args.context client.args.request
      client.args.lease = .ok ()
  known : ∀ {i : ℕ} {a : CallClient} {r : BudgetReservation}, s.clients[i]? = some a →
    r ∈ reservations a.history →
    ∃ current, s.store.reservations.lookup r.reservationId = some current ∧
      (current.isActive = true ↔ settlements a.history = [])
  distinct : ∀ {i j : ℕ} {a b : CallClient} {r r' : BudgetReservation}, s.clients[i]? = some a →
    s.clients[j]? = some b → r ∈ reservations a.history → r' ∈ reservations b.history →
    r.reservationId = r'.reservationId → i = j
  owned : ∀ {id : UUID} {current : BudgetReservation},
    s.store.reservations.lookup id = some current →
    ∃ client ∈ s.clients, ∃ r ∈ reservations client.history, r.reservationId = id

variable {g : ModelGateway} {py : PyText} {leases : Table WorkKey WorkLease} {s : CallService}
  {k : ℕ} {client : CallClient} {op : GatewayOp} {next : Except GatewayRaised op.Reply → Calling
  ModelResponse} {a : Except GatewayRaised op.Reply} {r' : MemoryRepository}

/-- A call that holds its reservation is not kept from telling what becomes of it. -/
theorem Owned.ready (howned : Owned g s) (hk : s.clients[k]? = some client) {t : Stage}
    {r : BudgetReservation} (htold : Told r t client.history) {at' : Timestamp}
    (hfence : s.store.requireFence client.args.lease at' = .ok ()) :
    MemoryRepository.Ready client.args s.store r at' := by
  have hmem : r ∈ reservations client.history := by
    rw [htold.reserved]
    exact List.mem_singleton_self r
  obtain ⟨current, hcurrent, hactive⟩ := howned.known hk hmem
  exact ⟨howned.context client (List.mem_of_getElem? hk) (List.ne_nil_of_mem hmem),
    MemoryRepository.requireActive_eq_ok.2 ⟨current, hcurrent, hactive.2 htold.settlements_eq⟩,
    hfence⟩

/-- **What the repository answers is smooth** for a call that tells everything in its turn. -/
theorem Owned.smooth_answered (howned : Owned g s) (hk : s.clients[k]? = some client)
    (hturn : InTurn g client.args client.history op)
    (hsteadily : Steadily g py client.args op s.store a r') : Smooth g ⟨op, a⟩ := by
  obtain ⟨⟨ids, hserved⟩, -, hfenced, hsmooth⟩ := hsteadily
  cases hserved with
  | other hnone =>
    refine hsmooth ?_
    cases op <;> first | rfl | cases hnone
  | repository hsome =>
    cases MemoryRepository.answers hsome with
    | @blocked _ e hblocked =>
      have hready : ∀ {r : BudgetReservation} {t : Stage} {at' : Timestamp},
          Told r t client.history → op.asked? = some at' →
          MemoryRepository.Ready client.args s.store r at' := fun htold hasked =>
        howned.ready hk htold (hfenced _ hasked)
      cases op with
      | completed => exact trivial
      | reserve => exact trivial
      | recordAttempt =>
        rcases hblocked with hnot | hlt
        · exact absurd (hready hturn.2 rfl) hnot
        · exact absurd hturn.1 (Nat.not_le.2 hlt)
      | recordAttemptFailure => exact absurd (hready hturn.2 rfl) hblocked
      | succeed =>
        rcases hblocked with hnot | herror
        · exact absurd (hready hturn.1 rfl) hnot
        · exact herror
      | recordUsageFailure => exact absurd (hready hturn rfl) hblocked
      | fail => exact absurd (hready hturn rfl) hblocked
      | _ => exact hblocked.elim
    | read => exact trivial
    | reserved _ _ hnew =>
      rw [hnew]
      exact ⟨rfl, rfl⟩
    | recorded hrecord => cases op <;> first | exact trivial | cases hrecord
    | settled hsettling hlimits =>
      cases op with
      | succeed =>
        cases hsettling
        exact hlimits _ _ _ rfl
      | recordUsageFailure => exact trivial
      | fail => exact trivial
      | _ => cases hsettling

/-! ## One step -/

/-- A call that is started has nothing yet. -/
theorem Owned.start (howned : Owned g s) (c : Completion) :
    Owned g ⟨s.store, s.clients ++ [⟨c, [], g.complete c⟩]⟩ where
  smooth client hclient := by
    rcases List.mem_append.1 hclient with hclient | hclient
    · exact howned.smooth client hclient
    · rw [List.mem_singleton.1 hclient]
      intro x hx
      cases hx
  context client hclient hreserved := by
    rcases List.mem_append.1 hclient with hclient | hclient
    · exact howned.context client hclient hreserved
    · rw [List.mem_singleton.1 hclient] at hreserved
      exact absurd rfl hreserved
  known hi hr := by
    rcases Service.getElem?_start hi with hi | ⟨-, rfl⟩
    · exact howned.known hi hr
    · cases hr
  distinct hi hj hr hr' heq := by
    rcases Service.getElem?_start hi with hi | ⟨-, rfl⟩
    · rcases Service.getElem?_start hj with hj | ⟨-, rfl⟩
      · exact howned.distinct hi hj hr hr' heq
      · cases hr'
    · cases hr
  owned hlookup := by
    obtain ⟨client, hclient, howner⟩ := howned.owned hlookup
    exact ⟨client, List.mem_append_left _ hclient, howner⟩

theorem Owned.replaces (howned : Owned g s) {store : MemoryRepository}
    (h : Replaces s.store store) : Owned g ⟨store, s.clients⟩ := by
  obtain ⟨lease, h⟩ := h
  cases h
  exact ⟨howned.smooth, howned.context, howned.known, howned.distinct, howned.owned⟩

theorem Owned.smooth_step (howned : Owned g s) (hk : s.clients[k]? = some client)
    (hsmooth : Smooth g ⟨op, a⟩) :
    ∀ other ∈ (s.answered k client op next a r').clients, ∀ x ∈ other.history, Smooth g x := by
  intro other hother x hx
  obtain ⟨old, hold, -, -, hx | ⟨-, rfl⟩⟩ := Service.mem_history_answered hk hother hx
  · exact howned.smooth old hold x hx
  · exact hsmooth

/-- Whoever has made a reservation is still there. -/
theorem owner_answered {id : UUID} (hk : s.clients[k]? = some client)
    (h : ∃ owner ∈ s.clients, ∃ r ∈ reservations owner.history, r.reservationId = id) :
    ∃ owner ∈ (s.answered k client op next a r').clients, ∃ r ∈ reservations owner.history,
      r.reservationId = id := by
  obtain ⟨owner, howner, r, hr, hid⟩ := h
  obtain ⟨owner', howner', -, hsub⟩ := Service.Grows.answered hk op next a r' owner howner
  obtain ⟨x, hx, hxr⟩ := List.mem_filterMap.1 hr
  exact ⟨owner', howner', r, List.mem_filterMap.2 ⟨x, hsub hx, hxr⟩, hid⟩

/-- No reservation is made: the calls have those they had. -/
theorem Owned.answered (howned : Owned g s) (hk : s.clients[k]? = some client)
    (hsmooth : Smooth g ⟨op, a⟩) (hr : reservation? ⟨op, a⟩ = none)
    (hknown : ∀ {i : ℕ} {other : CallClient} {r : BudgetReservation},
      (s.answered k client op next a r').clients[i]? = some other → r ∈ reservations other.history →
      ∃ current, r'.reservations.lookup r.reservationId = some current ∧
        (current.isActive = true ↔ settlements other.history = []))
    (hkeys : ∀ {id : UUID} {current : BudgetReservation},
      r'.reservations.lookup id = some current →
      ∃ owner ∈ s.clients, ∃ r ∈ reservations owner.history, r.reservationId = id) :
    Owned g (s.answered k client op next a r') := by
  have hold : ∀ {j : ℕ} {other : CallClient},
      (s.answered k client op next a r').clients[j]? = some other →
      ∃ old, s.clients[j]? = some old ∧ other.args = old.args ∧
        reservations other.history = reservations old.history := by
    intro j other hj
    obtain ⟨old, hold, hargs, ⟨-, rfl, hhistory⟩ | ⟨-, hhistory⟩⟩ := Service.getElem?_answered hk hj
    · rw [hhistory, reservations_concat, hr, Option.toList_none, List.append_nil]
      exact ⟨old, hold, hargs, rfl⟩
    · exact ⟨old, hold, hargs, by rw [hhistory]⟩
  refine ⟨howned.smooth_step hk hsmooth, ?_, hknown, ?_, fun h => owner_answered hk (hkeys h)⟩
  · intro other hother hreserved
    obtain ⟨j, hj⟩ := List.mem_iff_getElem?.1 hother
    obtain ⟨old, hold, hargs, hsame⟩ := hold hj
    rw [hargs]
    exact howned.context old (List.mem_of_getElem? hold) (hsame ▸ hreserved)
  · intro i j b d r₁ r₂ hi hj hr₁ hr₂ hid
    obtain ⟨b', hb', -, hb⟩ := hold hi
    obtain ⟨d', hd', -, hd⟩ := hold hj
    exact howned.distinct hb' hd' (hb ▸ hr₁) (hd ▸ hr₂) hid

theorem Owned.quiet (howned : Owned g s) (hk : s.clients[k]? = some client)
    (hsmooth : Smooth g ⟨op, a⟩) (hr : reservation? ⟨op, a⟩ = none)
    (hs : settlement? ⟨op, a⟩ = none) (hsame : r'.reservations = s.store.reservations) :
    Owned g (s.answered k client op next a r') := by
  refine howned.answered hk hsmooth hr ?_ fun hlookup => howned.owned (hsame ▸ hlookup)
  intro i other r hi hmem
  rw [hsame]
  obtain ⟨old, hold, -, ⟨-, rfl, hhistory⟩ | ⟨-, hhistory⟩⟩ := Service.getElem?_answered hk hi
  · rw [hhistory, reservations_concat, hr, Option.toList_none, List.append_nil] at hmem
    rw [hhistory, settlements_concat, hs, Option.toList_none, List.append_nil]
    exact howned.known hold hmem
  · rw [hhistory] at hmem ⊢
    exact howned.known hold hmem

/-- The reservation that is settled is the call's own. -/
theorem Owned.closes (howned : Owned g s) (hk : s.clients[k]? = some client)
    (hsmooth : Smooth g ⟨op, a⟩) {reservation : BudgetReservation} {e : Settlement}
    (hs : settlement? ⟨op, a⟩ = some (reservation, e)) (htold : Told reservation ⊤ client.history)
    {state : ReservationState} (hstate : state ≠ .active)
    (hset : r'.reservations = s.store.reservations.set reservation.reservationId
      { reservation with state := state }) :
    Owned g (s.answered k client op next a r') := by
  obtain ⟨hr, -⟩ := quiet_of_settlement? hs
  have hmem : reservation ∈ reservations client.history := by
    rw [htold.reserved]
    exact List.mem_singleton_self _
  refine howned.answered hk hsmooth hr ?_ ?_
  · intro i other r hi hother
    rw [hset, Assoc.lookup_set]
    obtain ⟨old, hold, -, ⟨-, rfl, hhistory⟩ | ⟨hne, hhistory⟩⟩ := Service.getElem?_answered hk hi
    · rw [hhistory, reservations_concat, hr, Option.toList_none, List.append_nil, htold.reserved,
        List.mem_singleton] at hother
      rw [if_pos (by rw [hother]), hhistory, settlements_concat, hs]
      refine ⟨_, rfl, ?_⟩
      rw [BudgetReservation.isActive, decide_eq_true_eq]
      exact ⟨fun h => absurd h hstate, fun h => by simp at h⟩
    · rw [hhistory] at hother ⊢
      rw [if_neg fun hid => hne (howned.distinct hold hk hother hmem hid)]
      exact howned.known hold hother
  · intro id current hlookup
    rw [hset, Assoc.lookup_set] at hlookup
    split at hlookup
    · rename_i hid
      exact ⟨client, List.mem_of_getElem? hk, reservation, hmem, hid.symm⟩
    · exact howned.owned hlookup

/-- A reservation is made, with an id of its own. -/
theorem Owned.opens (howned : Owned g s) (hk : s.clients[k]? = some client)
    (hsmooth : Smooth g ⟨op, a⟩) {new : BudgetReservation} (hr : reservation? ⟨op, a⟩ = some new)
    (hun : Untold client.history)
    (hcontext : MemoryRepository.validateRequestContext client.args.context client.args.request
      client.args.lease = .ok ())
    (hactive : new.isActive = true)
    (hfresh : s.store.reservations.lookup new.reservationId = none)
    (hset : r'.reservations = s.store.reservations.set new.reservationId new) :
    Owned g (s.answered k client op next a r') := by
  obtain ⟨hs, -⟩ := quiet_of_reservation? hr
  have hnew : ∀ {h : Calls}, h = client.history ++ [⟨op, a⟩] → reservations h = [new] := by
    rintro h rfl
    rw [reservations_concat, hun.reserved, hr]
    rfl
  have hother : ∀ {j : ℕ} {old : CallClient} {r : BudgetReservation}, s.clients[j]? = some old →
      r ∈ reservations old.history → r.reservationId ≠ new.reservationId := by
    intro j old r hj hmem hid
    obtain ⟨current, hcurrent, -⟩ := howned.known hj hmem
    rw [hid, hfresh] at hcurrent
    cases hcurrent
  refine ⟨howned.smooth_step hk hsmooth, ?_, ?_, ?_, ?_⟩
  · intro other hmem hreserved
    obtain ⟨j, hj⟩ := List.mem_iff_getElem?.1 hmem
    obtain ⟨old, hold, hargs, ⟨-, rfl, -⟩ | ⟨-, hhistory⟩⟩ := Service.getElem?_answered hk hj
    · rw [hargs]
      exact hcontext
    · rw [hargs]
      exact howned.context old (List.mem_of_getElem? hold) (hhistory ▸ hreserved)
  · intro i other r hi hmem
    rw [Service.answered, hset, Assoc.lookup_set]
    obtain ⟨old, hold, -, ⟨-, rfl, hhistory⟩ | ⟨-, hhistory⟩⟩ := Service.getElem?_answered hk hi
    · rw [hnew hhistory, List.mem_singleton] at hmem
      rw [if_pos (by rw [hmem]), hhistory, settlements_concat, hs, hun.settlements_eq]
      exact ⟨new, rfl, by rw [hactive]; simp⟩
    · rw [hhistory] at hmem ⊢
      rw [if_neg (hother hold hmem)]
      exact howned.known hold hmem
  · intro i j b d r₁ r₂ hi hj hr₁ hr₂ hid
    obtain ⟨b', hb', -, ⟨rfl, rfl, hb⟩ | ⟨-, hb⟩⟩ := Service.getElem?_answered hk hi
    · obtain ⟨d', hd', -, ⟨rfl, -, -⟩ | ⟨-, hd⟩⟩ := Service.getElem?_answered hk hj
      · rfl
      · rw [hnew hb, List.mem_singleton] at hr₁
        exact absurd (by rw [← hid, hr₁]) (hother hd' (hd ▸ hr₂))
    · obtain ⟨d', hd', -, ⟨rfl, rfl, hd⟩ | ⟨-, hd⟩⟩ := Service.getElem?_answered hk hj
      · rw [hnew hd, List.mem_singleton] at hr₂
        exact absurd (by rw [hid, hr₂]) (hother hb' (hb ▸ hr₁))
      · exact howned.distinct hb' hd' (hb ▸ hr₁) (hd ▸ hr₂) hid
  · intro id current hlookup
    rw [Service.answered, hset, Assoc.lookup_set] at hlookup
    split at hlookup
    · rename_i hid
      refine ⟨_, List.mem_set (List.getElem?_eq_some_iff.1 hk).1 _, new, ?_, hid.symm⟩
      rw [hnew rfl]
      exact List.mem_singleton_self new
    · exact owner_answered hk (howned.owned hlookup)

/-! ## Every run -/

/-- Every reservation is one call's, in every run. -/
theorem owned (h : RunsSteadily g py leases s) : Owned g s ∧
    Service.Sound (fun _ _ _ => True) (InTurn g) (fun _ => Closed g) s := by
  refine h.keeps (complete_tells g) (fun s c howned => howned.start c) ?_
    (fun s store howned hreplaces => howned.replaces hreplaces) ?_ ?_
  · intro s k client op next a r' howned hk hturn hsteadily
    have hsmooth := howned.smooth_answered hk hturn hsteadily
    obtain ⟨ids, hserved⟩ := hsteadily.serves
    refine ⟨trivial, ?_⟩
    cases hserved.changes with
    | quiet hr hs _ => exact howned.quiet hk hsmooth hr hs rfl
    | read => exact howned.quiet hk hsmooth rfl rfl rfl
    | opens hr hactive hcontext =>
      exact howned.opens hk hsmooth hr (untold_of_inTurn hturn hr) hcontext hactive
        (hsteadily.fresh _ hr) rfl
    | closes hs hstate => exact howned.closes hk hsmooth hs (told_of_inTurn hturn hs) hstate rfl
  · refine ⟨?_, ?_, ?_, ?_, ?_⟩
    · intro client hclient
      cases hclient
    · intro client hclient
      cases hclient
    · intro i a r hi
      cases hi
    · intro i j a b r r' hi
      cases hi
    · intro id current hlookup
      cases hlookup
  · intro client hclient
    cases hclient

/-- A call that has ended has settled what it reserved. -/
theorem settled_of_ended (hconf : Configured g) (h : RunsSteadily g py leases s)
    (hclient : client ∈ s.clients) {o : Except GatewayRaised ModelResponse}
    (hended : client.rest = .ofExcept o) {r : BudgetReservation}
    (hr : r ∈ reservations client.history) :
    ∃ e current, settlements client.history = [(r, e)] ∧ o = e.outcome ∧
      s.store.reservations.lookup r.reservationId = some current ∧ current.isActive = false := by
  obtain ⟨howned, hsound⟩ := owned h
  obtain ⟨i, hi⟩ := List.mem_iff_getElem?.1 hclient
  have hsteady : ¬ Disturbed g client.history := by
    rintro (hnot | ⟨x, hx, hrough⟩)
    · exact hnot hconf
    · exact hrough (howned.smooth client hclient x hx)
  cases hsound.ended hclient hended with
  | refused hnone =>
    rw [hnone] at hr
    cases hr
  | cached hnone =>
    rw [hnone] at hr
    cases hr
  | disturbed hd => exact absurd hd hsteady
  | @settled r' e _ hreserved hsettled =>
    rw [hreserved, List.mem_singleton] at hr
    subst hr
    obtain ⟨current, hcurrent, hactive⟩ := howned.known hi (hreserved ▸ List.mem_singleton_self r)
    refine ⟨e, current, hsettled, rfl, hcurrent, ?_⟩
    rw [hsettled] at hactive
    exact Bool.eq_false_iff.2 fun h => List.cons_ne_nil _ _ (hactive.1 h)

/-- Everything goes well. -/
def sampleReply : (op : GatewayOp) → Except GatewayRaised op.Reply
  | .clock => .ok 0
  | .time | .jitter .. => .ok (0 : ℚ)
  | .circuitState _ => .ok .closed
  | .admitCall .. | .sleepUnlessCancelled _ => .ok true
  | .cancellationIsSet => .ok false
  | .acquireSemaphore .. => .ok .acquired
  | .provide request model => .ok {
      requestId := request.requestId
      model := model
      finishReason := "completed"
      safetyOutcome := "passed"
      usage := ⟨900, 100, 0, 0, 0, by decide⟩
      latencyMs := 20 }
  | .completed _ => .ok none
  | .reserve .. => .error .other
  | .acquireCircuit _ | .succeedCircuit _ | .failCircuit _ | .abandonCircuit _ | .releaseProbe _ |
    .releaseSemaphore _ | .recordAttempt .. | .recordAttemptFailure .. | .sleep _ | .succeed .. |
    .recordUsageFailure .. | .fail .. => .ok ()

/-- The identifiers drawn for a call. -/
def sampleIds (c : Completion) (n : ℕ) : UUID := UUID.ofNat (100 * c.request.requestId.int + n)

/-- Every call is answered steadily, or not at all. -/
def sampleAnswers (c : Completion) (op : GatewayOp) (r : MemoryRepository) :
    Option (Except GatewayRaised op.Reply × MemoryRepository) :=
  (some ((r.answer plainConversions.toPyText c (sampleIds c) op).getD (sampleReply op, r))).filter
    fun x => (op.asked?.all fun at' => (r.requireFence c.lease at').isOk) &&
      (reservation? ⟨op, x.1⟩).all fun new => (r.reservations.lookup new.reservationId).isNone

theorem smooth_sampleReply (op : GatewayOp) (hop : op.asked? = none) :
    Smooth GatewayRun.sampleGateway ⟨op, sampleReply op⟩ := by
  cases op with
  | jitter => exact ⟨le_rfl, by show (0 : ℚ) ≤ 4; norm_num⟩
  | provide => exact Int.natCast_nonneg 20
  | _ => first | exact trivial | cases hop

theorem steadily_sampleAnswers (c : Completion) (op : GatewayOp) (r : MemoryRepository)
    (a : Except GatewayRaised op.Reply) (r' : MemoryRepository)
    (h : sampleAnswers c op r = some (a, r')) :
    Steadily GatewayRun.sampleGateway plainConversions.toPyText c op r a r' := by
  obtain ⟨hanswer, hcheck⟩ := Option.filter_eq_some_iff.1 h
  rw [Bool.and_eq_true, Option.all_eq_true, Option.all_eq_true] at hcheck
  rw [Option.some.injEq] at hanswer
  refine ⟨⟨sampleIds c, ?_⟩, fun new hnew => ?_, fun at' hat => ?_, fun hop => ?_⟩
  · cases hrepository : r.answer plainConversions.toPyText c (sampleIds c) op with
    | some x =>
      rw [hrepository] at hanswer
      cases hanswer
      exact .repository hrepository
    | none =>
      rw [hrepository] at hanswer
      cases hanswer
      exact .other hrepository
  · exact Option.isNone_iff_eq_none.1 (hcheck.2 new hnew)
  · have hfence := hcheck.1 at' hat
    cases hx : r.requireFence c.lease at' with
    | ok u => rfl
    | error e =>
      rw [hx] at hfence
      cases hfence
  · have hnone : r.answer plainConversions.toPyText c (sampleIds c) op = none := by
      cases op <;> first | rfl | cases hop
    rw [hnone] at hanswer
    cases hanswer
    exact smooth_sampleReply op hop

/-- The same content is asked for again, under the same key. -/
def repeatedCompletion : Completion :=
  { GatewayRun.sampleCompletion with
    request := { ModelRouter.sampleRequest with requestId := UUID.ofNat 7 } }

/-- It is asked for under another key. -/
def otherCompletion : Completion :=
  { GatewayRun.sampleCompletion with
    request := { ModelRouter.sampleRequest with
      requestId := UUID.ofNat 8
      idempotencyKey := "run-2-other"
      valid := by decide } }

def sampleLeases : Table WorkKey WorkLease :=
  (∅ : Table WorkKey WorkLease).upsert GatewayRun.sampleCompletion.lease.key
    GatewayRun.sampleCompletion.lease

/-- Three calls, one after the other. -/
def sampleService : CallService :=
  [GatewayRun.sampleCompletion, repeatedCompletion, otherCompletion].foldl
    (fun s c => s.serve GatewayRun.sampleGateway.complete sampleAnswers 60 c)
    ⟨{ activeLeases := sampleLeases }, []⟩

theorem runs_sampleService :
    RunsSteadily GatewayRun.sampleGateway plainConversions.toPyText sampleLeases sampleService :=
  Service.reaches_serve steadily_sampleAnswers (Service.reaches_serve steadily_sampleAnswers
    (Service.reaches_serve steadily_sampleAnswers (.refl _) 60 _) 60 _) 60 _

theorem args_sampleService : sampleService.clients.map (·.args) =
    [GatewayRun.sampleCompletion, repeatedCompletion, otherCompletion] := by
  simp only [sampleService, List.foldl_cons, List.foldl_nil, Service.args_serve, List.map_nil,
    List.nil_append, List.cons_append]

/-- All three return. -/
theorem returned_sampleService {client : CallClient} (hclient : client ∈ sampleService.clients) :
    ∃ response, client.rest = .ret response := by
  have hall : sampleService.clients.all (fun client =>
      (Service.returned? client.rest).isSome) = true := by decide +kernel
  obtain ⟨response, hresponse⟩ := Option.isSome_iff_exists.1 (List.all_eq_true.1 hall client hclient)
  exact ⟨response, Service.eq_ret_of_returned? hresponse⟩

theorem configured_sampleGateway : Configured GatewayRun.sampleGateway := by
  refine ⟨fun entry hentry => ?_, fun entry hentry => ?_, fun entry hentry => ?_⟩ <;>
    exact List.mem_map_of_mem (f := ModelCatalogEntry.identity) hentry

end ModelGateway

end AegisPlatform
