import AegisPlatform.Gateway.Finished
import AegisPlatform.Queueing.JsonText

/-!
# Repeated calls

Any number of calls of one gateway over one in-memory repository, with the same idempotency keys
among them.

* `Holds`, `Paid` — a call holds a reservation; a call has paid for a response.
* `Flight` — at most one call of a key holds a reservation or has paid, and what is stored under
  the key is what that call has paid for.
* `flight` — it is so in every run.
-/

namespace AegisPlatform

open Effects Effects.Prog

namespace ModelGateway

/-- A state that is reached from an empty repository, with calls made at any time and in any
interleaving. -/
def Runs (g : ModelGateway) (py : PyText) (leases : Table WorkKey WorkLease) (s : CallService) :
    Prop :=
  Service.Reaches g.complete (Serves py) Replaces ⟨{ activeLeases := leases }, []⟩ s

/-- The call holds a reservation. -/
def Holds (h : Calls) : Prop := reservations h ≠ [] ∧ settlements h = []

/-- The call has paid for the response. -/
def Paid (h : Calls) (response : ModelResponse) : Prop :=
  ∃ r, (r, .succeeded response) ∈ settlements h

/-- The call holds a reservation, or has paid. -/
def Engaged (h : Calls) : Prop := Holds h ∨ ∃ response, Paid h response

/-- What is stored under the key of a call is what has been paid for, and nothing else is read. -/
structure Kept (g : ModelGateway) (py : PyText) (s : CallService) : Prop where
  paid : ∀ {i : ℕ} {a : CallClient} {response : ModelResponse}, s.clients[i]? = some a →
    Paid a.history response → s.store.completed.lookup a.args.key =
      some (Gateway.requestContentDigest py a.args.request, response)
  read : ∀ {i : ℕ} {a : CallClient} {x : Exchange} {response : ModelResponse},
    s.clients[i]? = some a → x ∈ a.history → read? x = some response →
    s.store.completed.lookup a.args.key =
      some (Gateway.requestContentDigest py a.args.request, response)
  stored : ∀ {key digest response}, s.store.completed.lookup key = some (digest, response) →
    ∃ payer ∈ s.clients, payer.args.key = key ∧
      Gateway.requestContentDigest py payer.args.request = digest ∧ Paid payer.history response
  valid : ∀ {i : ℕ} {a : CallClient} {response : ModelResponse}, s.clients[i]? = some a →
    Paid a.history response → ∃ entry ∈ g.catalog.given,
      g.validator.validateResponse a.args.request response entry.identity = .ok ()

/-- **One call of a key at a time**: it holds a reservation, or it has paid. -/
structure Flight (g : ModelGateway) (py : PyText) (s : CallService) : Prop
    extends Kept g py s where
  alone : ∀ {i j : ℕ} {a b : CallClient}, s.clients[i]? = some a → s.clients[j]? = some b →
    a.args.key = b.args.key → Engaged a.history → Engaged b.history → i = j
  held : ∀ {i : ℕ} {a : CallClient}, s.clients[i]? = some a → Holds a.history →
    (s.store.inflight.lookup a.args.key).isSome
  free : ∀ key, (s.store.inflight.lookup key).isSome → s.store.completed.lookup key = none

/-! ## What an exchange adds -/

section

variable {h : Calls} {x : Exchange} {response : ModelResponse} {r : BudgetReservation}
  {e : Settlement}

theorem holds_concat_quiet (hr : reservation? x = none) (hs : settlement? x = none) :
    Holds (h ++ [x]) ↔ Holds h := by
  simp only [Holds, reservations_concat, settlements_concat, hr, hs, Option.toList_none,
    List.append_nil]

theorem paid_concat (hs : settlement? x = none) : Paid (h ++ [x]) response ↔ Paid h response := by
  rw [Paid, settlements_concat, hs, Option.toList_none, List.append_nil]
  rfl

theorem paid_concat_settled (hs : settlement? x = some (r, e)) :
    Paid (h ++ [x]) response ↔ Paid h response ∨ e = .succeeded response := by
  rw [Paid, settlements_concat, hs]
  simp only [Option.toList_some, List.mem_append, List.mem_singleton, Prod.mk.injEq, Paid]
  constructor
  · rintro ⟨r', hmem | ⟨-, he⟩⟩
    · exact .inl ⟨r', hmem⟩
    · exact .inr he.symm
  · rintro (⟨r', hmem⟩ | rfl)
    · exact ⟨r', .inl hmem⟩
    · exact ⟨r, .inr ⟨rfl, rfl⟩⟩

theorem not_holds_concat_settled (hs : settlement? x = some (r, e)) : ¬ Holds (h ++ [x]) := by
  rintro ⟨-, hnone⟩
  rw [settlements_concat, hs, Option.toList_some] at hnone
  exact List.append_ne_nil_of_right_ne_nil _ (List.cons_ne_nil _ _) hnone

/-- What may be told of a reservation after this history is told by a call that holds it. -/
theorem holds_of_inTurn {g : ModelGateway} {c : Completion} {op : GatewayOp}
    {a : Except GatewayRaised op.Reply} (hturn : InTurn g c h op)
    (hs : settlement? ⟨op, a⟩ = some (r, e)) : Holds h := by
  have htold := told_of_inTurn hturn hs
  exact ⟨by rw [htold.reserved]; exact List.cons_ne_nil _ _, htold.settlements_eq⟩

end

/-! ## One step -/

variable {g : ModelGateway} {py : PyText} {leases : Table WorkKey WorkLease} {s : CallService}
  {k : ℕ} {client : CallClient} {op : GatewayOp} {next : Except GatewayRaised op.Reply → Calling
  ModelResponse} {a : Except GatewayRaised op.Reply} {r' : MemoryRepository}

theorem not_holds_nil : ¬ Holds [] := fun ⟨hne, _⟩ => hne rfl

theorem not_paid_nil {response : ModelResponse} : ¬ Paid [] response := fun ⟨_, hmem⟩ => by cases hmem

theorem not_engaged_nil : ¬ Engaged [] := by
  rintro (h | ⟨_, h⟩)
  · exact not_holds_nil h
  · exact not_paid_nil h

/-- A call that is started has nothing yet. -/
theorem Flight.start (hflight : Flight g py s) (c : Completion) :
    Flight g py ⟨s.store, s.clients ++ [⟨c, [], g.complete c⟩]⟩ where
  paid hi ha := by
    rcases Service.getElem?_start hi with hi | ⟨-, rfl⟩
    · exact hflight.paid hi ha
    · exact absurd ha not_paid_nil
  read hi hx hread := by
    rcases Service.getElem?_start hi with hi | ⟨-, rfl⟩
    · exact hflight.read hi hx hread
    · cases hx
  stored hkey := by
    obtain ⟨payer, hpayer, hpaid⟩ := hflight.stored hkey
    exact ⟨payer, List.mem_append_left _ hpayer, hpaid⟩
  valid hi ha := by
    rcases Service.getElem?_start hi with hi | ⟨-, rfl⟩
    · exact hflight.valid hi ha
    · exact absurd ha not_paid_nil
  alone hi hj hkey ha hb := by
    rcases Service.getElem?_start hi with hi | ⟨-, rfl⟩
    · rcases Service.getElem?_start hj with hj | ⟨-, rfl⟩
      · exact hflight.alone hi hj hkey ha hb
      · exact absurd hb not_engaged_nil
    · exact absurd ha not_engaged_nil
  held hi ha := by
    rcases Service.getElem?_start hi with hi | ⟨-, rfl⟩
    · exact hflight.held hi ha
    · exact absurd ha not_holds_nil
  free := hflight.free

/-- The lease does not matter. -/
theorem Flight.replaces (hflight : Flight g py s) {store : MemoryRepository}
    (h : Replaces s.store store) : Flight g py ⟨store, s.clients⟩ := by
  obtain ⟨lease, h⟩ := h
  cases h
  exact ⟨⟨hflight.paid, hflight.read, hflight.stored, hflight.valid⟩, hflight.alone, hflight.held,
    hflight.free⟩

/-- What a call has paid for, it goes on having paid for. -/
theorem Paid.mono {h h' : Calls} {response : ModelResponse} (hpaid : Paid h response) (hsub : h ⊆ h') :
    Paid h' response := by
  obtain ⟨r, hmem⟩ := hpaid
  obtain ⟨x, hx, hsettlement⟩ := List.mem_filterMap.1 hmem
  exact ⟨r, List.mem_filterMap.2 ⟨x, hsub hx, hsettlement⟩⟩

/-- Whoever has paid is still there. -/
theorem payer_answered {key : String × String} {digest : String} {response : ModelResponse}
    (hk : s.clients[k]? = some client)
    (h : ∃ payer ∈ s.clients, payer.args.key = key ∧
      Gateway.requestContentDigest py payer.args.request = digest ∧ Paid payer.history response) :
    ∃ payer ∈ (s.answered k client op next a r').clients, payer.args.key = key ∧
      Gateway.requestContentDigest py payer.args.request = digest ∧
      Paid payer.history response := by
  obtain ⟨payer, hpayer, hkey, hdigest, hpaid⟩ := h
  obtain ⟨payer', hpayer', hargs, hsub⟩ := Service.Grows.answered hk op next a r' payer hpayer
  exact ⟨payer', hpayer', hargs ▸ hkey, hargs ▸ hdigest, hpaid.mono hsub⟩

/-- Nothing is paid for, and what is read is stored. -/
theorem Kept.answered (hkept : Kept g py s) (hk : s.clients[k]? = some client)
    (hs : settlement? ⟨op, a⟩ = none)
    (hread : ∀ response, read? ⟨op, a⟩ = some response →
      s.store.completed.lookup client.args.key =
        some (Gateway.requestContentDigest py client.args.request, response))
    (hcompleted : r'.completed = s.store.completed) :
    Kept g py (s.answered k client op next a r') := by
  have hpaid : ∀ {j : ℕ} {other : CallClient} {response : ModelResponse},
      (s.answered k client op next a r').clients[j]? = some other → Paid other.history response →
      ∃ old, s.clients[j]? = some old ∧ other.args = old.args ∧ Paid old.history response := by
    intro j other response hj hpaid
    obtain ⟨old, hold, hargs, ⟨-, -, hhistory⟩ | ⟨-, hhistory⟩⟩ := Service.getElem?_answered hk hj
    · rw [hhistory, paid_concat hs] at hpaid
      exact ⟨old, hold, hargs, hpaid⟩
    · rw [hhistory] at hpaid
      exact ⟨old, hold, hargs, hpaid⟩
  refine ⟨?_, ?_, ?_, ?_⟩
  · intro i b response hi hb
    obtain ⟨old, hold, hargs, hpaid⟩ := hpaid hi hb
    rw [Service.answered, hcompleted, hargs]
    exact hkept.paid hold hpaid
  · intro i b x response hi hx hxread
    obtain ⟨old, hold, hargs, hcases⟩ := Service.getElem?_answered hk hi
    rw [Service.answered, hcompleted, hargs]
    rcases hcases with ⟨-, rfl, hhistory⟩ | ⟨-, hhistory⟩
    · rw [hhistory] at hx
      rcases List.mem_append.1 hx with hx | hx
      · exact hkept.read hold hx hxread
      · rw [List.mem_singleton.1 hx] at hxread
        exact hread response hxread
    · rw [hhistory] at hx
      exact hkept.read hold hx hxread
  · intro key digest response hkey
    rw [Service.answered, hcompleted] at hkey
    exact payer_answered hk (hkept.stored hkey)
  · intro i b response hi hb
    obtain ⟨old, hold, hargs, hpaid⟩ := hpaid hi hb
    rw [hargs]
    exact hkept.valid hold hpaid

/-- An answer that tells nothing of a reservation. -/
theorem Flight.quiet (hflight : Flight g py s) (hk : s.clients[k]? = some client)
    (hr : reservation? ⟨op, a⟩ = none) (hs : settlement? ⟨op, a⟩ = none)
    (hread : ∀ response, read? ⟨op, a⟩ = some response →
      s.store.completed.lookup client.args.key =
        some (Gateway.requestContentDigest py client.args.request, response))
    (hinflight : r'.inflight = s.store.inflight) (hcompleted : r'.completed = s.store.completed) :
    Flight g py (s.answered k client op next a r') := by
  have hold : ∀ {j : ℕ} {other : CallClient},
      (s.answered k client op next a r').clients[j]? = some other →
      ∃ old, s.clients[j]? = some old ∧ other.args = old.args ∧
        (Holds other.history ↔ Holds old.history) ∧
        (Engaged other.history → Engaged old.history) := by
    intro j other hj
    obtain ⟨old, hold, hargs, ⟨-, -, hhistory⟩ | ⟨-, hhistory⟩⟩ := Service.getElem?_answered hk hj
    · rw [hhistory]
      exact ⟨old, hold, hargs, holds_concat_quiet hr hs, Or.imp (holds_concat_quiet hr hs).1
        fun ⟨response, hpaid⟩ => ⟨response, (paid_concat hs).1 hpaid⟩⟩
    · rw [hhistory]
      exact ⟨old, hold, hargs, Iff.rfl, id⟩
  refine ⟨hflight.toKept.answered hk hs hread hcompleted, ?_, ?_, ?_⟩
  · intro i j b d hi hj hkey hb hd
    obtain ⟨b', hb', hbargs, -, hbengaged⟩ := hold hi
    obtain ⟨d', hd', hdargs, -, hdengaged⟩ := hold hj
    exact hflight.alone hb' hd' (hbargs ▸ hdargs ▸ hkey) (hbengaged hb) (hdengaged hd)
  · intro i b hi hb
    obtain ⟨b', hb', hargs, hholds, -⟩ := hold hi
    rw [Service.answered, hinflight, hargs]
    exact hflight.held hb' (hholds.1 hb)
  · rw [Service.answered, hinflight, hcompleted]
    exact hflight.free

/-- A reservation is made when the key is free. -/
theorem Flight.opens (hflight : Flight g py s) (hk : s.clients[k]? = some client)
    {new : BudgetReservation} (hr : reservation? ⟨op, a⟩ = some new)
    (hinflight : s.store.inflight.lookup client.args.key = none)
    (hcompleted : s.store.completed.lookup client.args.key = none) {entry : UUID × String}
    (hinflight' : r'.inflight = s.store.inflight.upsert client.args.key entry)
    (hcompleted' : r'.completed = s.store.completed) :
    Flight g py (s.answered k client op next a r') := by
  obtain ⟨hs, hread⟩ := quiet_of_reservation? hr
  -- whoever is engaged has the key taken
  have hfree : ∀ {j : ℕ} {other : CallClient}, s.clients[j]? = some other →
      Engaged other.history → other.args.key ≠ client.args.key := by
    rintro j other hj (hholds | ⟨response, hpaid⟩) hkey
    · have hbusy := hflight.held hj hholds
      rw [hkey, hinflight] at hbusy
      cases hbusy
    · have hstored := hflight.paid hj hpaid
      rw [hkey, hcompleted] at hstored
      cases hstored
  refine ⟨hflight.toKept.answered hk hs (fun response h => ?_) hcompleted', ?_, ?_, ?_⟩
  · rw [hread] at h
    cases h
  · intro i j b d hi hj hkey hb hd
    obtain ⟨b', hb', hbargs, ⟨rfl, rfl, -⟩ | ⟨hi', hbhistory⟩⟩ := Service.getElem?_answered hk hi
    · obtain ⟨d', hd', hdargs, ⟨rfl, -, -⟩ | ⟨-, hdhistory⟩⟩ := Service.getElem?_answered hk hj
      · rfl
      · exact absurd (by rw [← hdargs, ← hkey, hbargs]) (hfree hd' (hdhistory ▸ hd))
    · obtain ⟨d', hd', hdargs, ⟨rfl, rfl, -⟩ | ⟨-, hdhistory⟩⟩ := Service.getElem?_answered hk hj
      · exact absurd (by rw [← hbargs, hkey, hdargs]) (hfree hb' (hbhistory ▸ hb))
      · exact hflight.alone hb' hd' (hbargs ▸ hdargs ▸ hkey) (hbhistory ▸ hb) (hdhistory ▸ hd)
  · intro i b hi hb
    rw [Service.answered, hinflight', Table.lookup_upsert]
    split
    · rfl
    · rename_i hne
      obtain ⟨b', hb', hargs, ⟨-, rfl, -⟩ | ⟨-, hhistory⟩⟩ := Service.getElem?_answered hk hi
      · exact absurd (by rw [hargs]) hne
      · rw [hargs]
        exact hflight.held hb' (hhistory ▸ hb)
  · intro key hbusy
    rw [Service.answered, hinflight', Table.lookup_upsert] at hbusy
    rw [Service.answered, hcompleted']
    split at hbusy
    · rename_i hkey
      rw [hkey]
      exact hcompleted
    · exact hflight.free key hbusy

/-- The response that is paid for is one of the catalog's models, and is what was asked for. -/
theorem valid_of_inTurn {r : BudgetReservation} {response : ModelResponse}
    (hturn : InTurn g client.args client.history op)
    (hs : settlement? ⟨op, a⟩ = some (r, .succeeded response)) :
    ∃ entry ∈ g.catalog.given,
      g.validator.validateResponse client.args.request response entry.identity = .ok () := by
  cases op with
  | succeed =>
    cases a <;> cases hs
    obtain ⟨-, entry, hentry, -, hvalid⟩ := hturn
    exact ⟨entry, hentry, hvalid⟩
  | recordUsageFailure => cases a <;> cases hs
  | fail => cases a <;> cases hs
  | _ => cases hs

section

variable {reservation : BudgetReservation} {state : ReservationState} {e : Settlement}
  {es : List EventEnvelope} {key : String × String}

theorem completed_settledBy_ne (reservation : BudgetReservation) (state : ReservationState)
    (hkey : key ≠ client.args.key) :
    (MemoryRepository.settledBy py s.store client.args.request reservation state
      e.response?).completed.lookup key = s.store.completed.lookup key := by
  cases e with
  | succeeded response => exact Table.lookup_upsert_ne _ _ hkey
  | failed error => rfl

/-- A settlement is made by the one call that is engaged in the key. -/
theorem Flight.closes (hflight : Flight g py s) (hk : s.clients[k]? = some client)
    (hs : settlement? ⟨op, a⟩ = some (reservation, e))
    (hturn : InTurn g client.args client.history op) :
    Flight g py (s.answered k client op next a
      { MemoryRepository.settledBy py s.store client.args.request reservation state
        e.response? with events := es }) := by
  obtain ⟨hr, hread⟩ := quiet_of_settlement? hs
  have hholds : Holds client.history := holds_of_inTurn hturn hs
  have hunpaid : ∀ response, ¬ Paid client.history response := fun response ⟨r, hmem⟩ => by
    rw [hholds.2] at hmem
    cases hmem
  have hcompleted := hflight.free _ (hflight.held hk hholds)
  have halone : ∀ {j : ℕ} {other : CallClient}, s.clients[j]? = some other → j ≠ k →
      Engaged other.history → other.args.key ≠ client.args.key := fun hj hne hengaged hkey =>
    hne (hflight.alone hj hk hkey hengaged (.inl hholds))
  refine ⟨⟨?_, ?_, ?_, ?_⟩, ?_, ?_, ?_⟩
  · intro i b response hi hb
    obtain ⟨old, hold, hargs, ⟨-, rfl, hhistory⟩ | ⟨hne, hhistory⟩⟩ :=
      Service.getElem?_answered hk hi
    · rw [hhistory, paid_concat_settled hs] at hb
      obtain rfl := hb.resolve_left (hunpaid response)
      rw [hargs]
      exact Table.lookup_upsert_self ..
    · rw [hhistory] at hb
      rw [hargs]
      exact (completed_settledBy_ne reservation state (halone hold hne (.inr ⟨response, hb⟩))).trans
        (hflight.paid hold hb)
  · intro i b x response hi hx hxread
    obtain ⟨old, hold, hargs, hcases⟩ := Service.getElem?_answered hk hi
    have hmem : x ∈ old.history := by
      rcases hcases with ⟨-, -, hhistory⟩ | ⟨-, hhistory⟩
      · rw [hhistory] at hx
        refine (List.mem_append.1 hx).resolve_right fun hx => ?_
        rw [List.mem_singleton.1 hx, hread] at hxread
        cases hxread
      · exact hhistory ▸ hx
    have hstored := hflight.read hold hmem hxread
    rw [hargs]
    refine (completed_settledBy_ne reservation state fun hkey => ?_).trans hstored
    rw [hkey, hcompleted] at hstored
    cases hstored
  · intro key digest response hkey
    by_cases hown : key = client.args.key
    · subst hown
      cases e with
      | succeeded response' =>
        replace hkey := (Table.lookup_upsert_self ..).symm.trans hkey
        cases hkey
        refine ⟨_, List.mem_set (List.getElem?_eq_some_iff.1 hk).1 _, rfl, rfl, ?_⟩
        exact (paid_concat_settled hs).2 (.inr rfl)
      | failed error =>
        replace hkey := hcompleted.symm.trans hkey
        cases hkey
    · exact payer_answered hk (hflight.stored ((completed_settledBy_ne reservation state hown).symm.trans hkey))
  · intro i b response hi hb
    obtain ⟨old, hold, hargs, ⟨-, rfl, hhistory⟩ | ⟨-, hhistory⟩⟩ := Service.getElem?_answered hk hi
    · rw [hhistory, paid_concat_settled hs] at hb
      obtain rfl := hb.resolve_left (hunpaid response)
      rw [hargs]
      exact valid_of_inTurn hturn hs
    · rw [hargs]
      exact hflight.valid hold (hhistory ▸ hb)
  · intro i j b d hi hj hkey hb hd
    have hold : ∀ {j : ℕ} {other : CallClient}, (s.answered k client op next a
        { MemoryRepository.settledBy py s.store client.args.request reservation state
          e.response? with events := es }).clients[j]? = some other → Engaged other.history →
        ∃ old, s.clients[j]? = some old ∧ other.args = old.args ∧ Engaged old.history := by
      intro j other hj hother
      obtain ⟨old, hold, hargs, ⟨-, rfl, -⟩ | ⟨-, hhistory⟩⟩ := Service.getElem?_answered hk hj
      · exact ⟨old, hold, hargs, .inl hholds⟩
      · exact ⟨old, hold, hargs, hhistory ▸ hother⟩
    obtain ⟨b', hb', hbargs, hbengaged⟩ := hold hi hb
    obtain ⟨d', hd', hdargs, hdengaged⟩ := hold hj hd
    exact hflight.alone hb' hd' (hbargs ▸ hdargs ▸ hkey) hbengaged hdengaged
  · intro i b hi hb
    obtain ⟨old, hold, hargs, ⟨-, -, hhistory⟩ | ⟨hne, hhistory⟩⟩ := Service.getElem?_answered hk hi
    · exact absurd (hhistory ▸ hb) (not_holds_concat_settled hs)
    · rw [hhistory] at hb
      have hkey := halone hold hne (.inl hb)
      rw [hargs]
      show ((s.store.inflight.delete client.args.key).lookup old.args.key).isSome = true
      rw [Table.lookup_delete, if_neg hkey]
      exact hflight.held hold hb
  · intro key hbusy
    replace hbusy : ((s.store.inflight.delete client.args.key).lookup key).isSome = true := hbusy
    rw [Table.lookup_delete] at hbusy
    split at hbusy
    · cases hbusy
    · rename_i hne
      exact (completed_settledBy_ne reservation state hne).trans (hflight.free key hbusy)

end

/-! ## Every run -/

/-- One call of a key at a time, in every run. -/
theorem flight (h : Runs g py leases s) : Flight g py s ∧
    Service.Sound (fun _ _ _ => True) (InTurn g) (fun _ => Closed g) s := by
  refine h.keeps (complete_tells g) (fun s c hflight => hflight.start c) ?_
    (fun s store hflight hreplaces => hflight.replaces hreplaces) ?_ ?_
  · rintro s k client op next a r' hflight hk hturn ⟨ids, hserved⟩
    refine ⟨trivial, ?_⟩
    cases hserved.changes with
    | quiet hr hs hread =>
      exact hflight.quiet hk hr hs (fun response h => by rw [hread] at h; cases h) rfl rfl
    | read hstored =>
      exact hflight.quiet hk rfl rfl (fun response h => by cases h; exact hstored) rfl rfl
    | opens hr _ _ hinflight hcompleted => exact hflight.opens hk hr hinflight hcompleted rfl rfl
    | closes hs _ => exact hflight.closes hk hs hturn
  · exact ⟨⟨fun hi => (by cases hi), fun hi => (by cases hi), fun hkey => (by cases hkey),
      fun hi => (by cases hi)⟩, fun hi => (by cases hi), fun hi => (by cases hi),
      fun key hbusy => rfl⟩
  · intro client hclient
    cases hclient

variable {response : ModelResponse}

/-- What a call returns is stored under its key, and under the digest of its own content. -/
theorem stored_of_returned (h : Runs g py leases s) (hclient : client ∈ s.clients)
    (hreturned : client.rest = .ret response) : s.store.completed.lookup client.args.key =
      some (Gateway.requestContentDigest py client.args.request, response) := by
  obtain ⟨hflight, hsound⟩ := flight h
  obtain ⟨i, hi⟩ := List.mem_iff_getElem?.1 hclient
  generalize ho : (Except.ok response : Except GatewayRaised ModelResponse) = o at *
  have hclosed : Closed g o client.history :=
    hsound.ended hclient (by rw [hreturned, ← ho]; rfl)
  cases hclosed with
  | refused => cases ho
  | cached _ _ hmem =>
    cases ho
    exact hflight.read hi hmem rfl
  | @settled r e _ _ hsettlements =>
    cases e with
    | failed => cases ho
    | succeeded response' =>
      cases ho
      exact hflight.paid hi ⟨r, hsettlements ▸ List.mem_singleton_self _⟩
  | disturbed => cases ho

theorem runs_of_steadily (h : RunsSteadily g py leases s) : Runs g py leases s :=
  h.mono fun _ _ _ _ _ hsteadily => hsteadily.serves

section

variable {v w : ModelRequest}

/-- A tool of a request is one of every request of the same content. -/
theorem tool_of_content
    (h : (Gateway.contentPayload v).sortKeys = (Gateway.contentPayload w).sortKeys)
    {tool : ToolDefinition} (htool : tool ∈ v.tools) :
    ∃ tool' ∈ w.tools, tool'.name = tool.name ∧ (JsonValue.obj tool'.inputSchema.schema).sortKeys =
      (JsonValue.obj tool.inputSchema.schema).sortKeys := by
  have htools : (JsonValue.list (w.tools.map Gateway.toolPayload)).sortKeys =
      (JsonValue.list (v.tools.map Gateway.toolPayload)).sortKeys :=
    JsonValue.field_sortKeys_eq h "tools" (by simp) fun x hx => by simpa using hx
  obtain ⟨payload, hpayload, heq⟩ := JsonValue.mem_of_sortKeys_list_eq htools.symm
    (List.mem_map_of_mem htool)
  obtain ⟨tool', htool', rfl⟩ := List.mem_map.1 hpayload
  have hname : (JsonValue.str tool.name).sortKeys = (JsonValue.str tool'.name).sortKeys :=
    JsonValue.field_sortKeys_eq heq "name" (by simp) fun x hx => by simpa using hx
  have hschema : (JsonValue.obj tool.inputSchema.schema).sortKeys =
      (JsonValue.obj tool'.inputSchema.schema).sortKeys :=
    JsonValue.field_sortKeys_eq heq "schema" (by simp) fun x hx => by simpa using hx
  exact ⟨tool', htool', (JsonValue.str.inj hname).symm, hschema.symm⟩

/-- So is the schema of the response. -/
theorem responseSchema_of_content
    (h : (Gateway.contentPayload v).sortKeys = (Gateway.contentPayload w).sortKeys)
    {schema : JsonSchema} (hschema : w.responseSchema = some schema) :
    ∃ schema', v.responseSchema = some schema' ∧
      (JsonValue.obj schema'.schema).sortKeys = (JsonValue.obj schema.schema).sortKeys := by
  cases hv : v.responseSchema with
  | none =>
    have hnone : JsonValue.null.sortKeys = (Gateway.schemaPayload schema).sortKeys :=
      JsonValue.field_sortKeys_eq h.symm "response_schema" (by simp [hschema]) fun x hx => by
        simpa [hv] using hx
    cases hnone
  | some schema' =>
    have hsome : (Gateway.schemaPayload schema').sortKeys = (Gateway.schemaPayload schema).sortKeys :=
      JsonValue.field_sortKeys_eq h.symm "response_schema" (by simp [hschema]) fun x hx => by
        simpa [hv] using hx
    exact ⟨schema', rfl, JsonValue.field_sortKeys_eq hsome.symm "schema" (by simp) fun x hx => by
      simpa using hx⟩

end

end ModelGateway

/-- A validator for which the keys of a schema come in any order. -/
def SchemaValidator.KeyOrderBlind (validator : SchemaValidator) : Prop :=
  ∀ schema schema' : Dict,
    (JsonValue.obj schema).sortKeys = (JsonValue.obj schema').sortKeys →
      validator.checkSchema schema = validator.checkSchema schema' ∧
        ∀ value, validator.validate schema value = validator.validate schema' value

namespace ModelGateway

section

variable {v w : ModelRequest} {validator : SchemaValidator} {response : ModelResponse}

/-- A response conforms to every request of the same content. -/
theorem conforms_of_content (hblind : validator.KeyOrderBlind)
    (h : (Gateway.contentPayload v).sortKeys = (Gateway.contentPayload w).sortKeys)
    (hconforms : validator.Conforms v response) : validator.Conforms w response := by
  have haccepts : ∀ {schema schema' : JsonSchema} {value : Dict},
      (JsonValue.obj schema'.schema).sortKeys = (JsonValue.obj schema.schema).sortKeys →
      validator.Accepts schema' value → validator.Accepts schema value := by
    intro schema schema' value hsame ⟨hcheck, hvalidate⟩
    obtain ⟨hcheck', hvalidate'⟩ := hblind _ _ hsame
    exact ⟨hcheck' ▸ hcheck, hvalidate' value ▸ hvalidate⟩
  refine ⟨fun schema hschema => ?_, fun proposal hproposal => ?_⟩
  · obtain ⟨schema', hschema', hsame⟩ := responseSchema_of_content h hschema
    obtain ⟨output, houtput, hvalid⟩ := hconforms.output schema' hschema'
    exact ⟨output, houtput, haccepts hsame hvalid⟩
  · obtain ⟨tool, htool, hname, hvalid⟩ := hconforms.calls proposal hproposal
    obtain ⟨tool', htool', hname', hsame⟩ := tool_of_content h htool
    exact ⟨tool', htool', hname'.trans hname, haccepts hsame.symm hvalid⟩

end

/-- **A response belongs to its request**: it was paid for by one call of the same tenant, key and
content, whose id it carries; it comes from a model of the catalog, and it has the output and the
tool calls that were asked for. -/
theorem response_belongs (h : Runs g py leases s) (hblind : g.validator.KeyOrderBlind)
    (hdigest : ∀ a ∈ s.clients, ∀ b ∈ s.clients,
      Gateway.requestContentDigest py a.args.request =
        Gateway.requestContentDigest py b.args.request →
      (Gateway.contentPayload a.args.request).sortKeys =
        (Gateway.contentPayload b.args.request).sortKeys)
    (hclient : client ∈ s.clients) (hreturned : client.rest = .ret response) :
    Listed g response.model ∧ g.validator.Conforms client.args.request response ∧
      ∃ payer ∈ s.clients, payer.args.key = client.args.key ∧ Paid payer.history response ∧
        Gateway.requestContentDigest py payer.args.request =
          Gateway.requestContentDigest py client.args.request ∧
        response.requestId = payer.args.request.requestId := by
  obtain ⟨hflight, -⟩ := flight h
  obtain ⟨payer, hpayer, hkey, hsame, hpaid⟩ :=
    hflight.stored (stored_of_returned h hclient hreturned)
  obtain ⟨i, hi⟩ := List.mem_iff_getElem?.1 hpayer
  obtain ⟨entry, hentry, hvalid⟩ := hflight.valid hi hpaid
  obtain ⟨hid, hmodel, hconforms⟩ := SchemaValidator.validateResponse_eq_ok.1 hvalid
  exact ⟨⟨entry, hentry, hmodel.symm⟩,
    conforms_of_content hblind (hdigest payer hpayer client hclient hsame) hconforms,
    payer, hpayer, hkey, hpaid, hsame, hid⟩

theorem response_belongs_sample : ∃ client ∈ sampleService.clients, ∃ response,
    client.rest = .ret response ∧ Listed GatewayRun.sampleGateway response.model := by
  have hcontent : ∀ client ∈ sampleService.clients,
      Gateway.contentPayload client.args.request =
        Gateway.contentPayload ModelRouter.sampleRequest := by
    intro client hclient
    have hargs : client.args ∈ sampleService.clients.map (·.args) := List.mem_map_of_mem hclient
    rw [args_sampleService] at hargs
    simp only [List.mem_cons, List.not_mem_nil, or_false] at hargs
    rcases hargs with h | h | h <;> rw [h] <;> rfl
  obtain ⟨client, hclient⟩ : ∃ client, client ∈ sampleService.clients := by
    refine List.exists_mem_of_ne_nil _ fun hnil => ?_
    have hargs := args_sampleService
    rw [hnil] at hargs
    cases hargs
  obtain ⟨response, hresponse⟩ := returned_sampleService hclient
  refine ⟨client, hclient, response, hresponse, ?_⟩
  exact (response_belongs (runs_of_steadily runs_sampleService)
    (fun _ _ _ => ⟨rfl, fun _ => rfl⟩)
    (fun a ha b hb _ => by rw [hcontent a ha, hcontent b hb]) hclient hresponse).1

end ModelGateway

end AegisPlatform
