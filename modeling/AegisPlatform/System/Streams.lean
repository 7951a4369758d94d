import AegisPlatform.Lib.Clients
import AegisPlatform.Queueing.StreamServer
import AegisPlatform.System.Transport

/-!
# Queues over one stream

Any number of calls of any number of queues, in any order, over one server whose answers may be lost
and whose group may be destroyed.

* `Kept` — what is known of the server and of the calls; `Kept.answered` is its step.
* `nothing_lost` — an entry is in the stream until a call with a reason settles it.
* `published_kept` — a published envelope is delivered until it is acknowledged or quarantined.
* `settled_stays` — what is settled is not delivered again.
-/

namespace AegisPlatform

open Fallible Streams Effects

/-! ## Any number of calls -/

abbrev QueueClient := Client (ℕ × QueueCall) QueueOp QueueOp.Reply QueueRaised QueueResult

abbrev QueueService :=
  Service RedisServer (ℕ × QueueCall) QueueOp QueueOp.Reply QueueRaised QueueResult

namespace RedisStreamQueue

open RedisServer

section

variable (F : Json.FloatText) (conv : Conversions) (socketTimeout : Option ℚ) (ids : IdReader)

/-- Calls of any queues, in any order, over a server that starts without a stream. -/
def Reaches (s : QueueService) : Prop :=
  Service.Reaches (fun args : ℕ × QueueCall => args.2.prog F conv socketTimeout)
    (RedisServer.Serves ids) RedisServer.Moves ⟨RedisServer.initial, []⟩ s

/-- The call has settled the entry: it was told to, or it was handed the entry and there is no
envelope in it. -/
def SettledBy (client : QueueClient) (e : StreamId × StreamFields) : Prop :=
  (∃ delivery, client.args.2 = .acknowledge delivery ∧ ids.read delivery.streamEntryId = some e.1) ∨
  (∃ delivery reasonCode, client.args.2 = .quarantine delivery reasonCode ∧
    ids.read delivery.streamEntryId = some e.1) ∨
  Handed client.history (entryOf e) ∧ (entryOf e).IsPoison conv

/-- What is known of the server and of the calls. -/
structure Kept (s : QueueService) : Prop where
  store : s.store.Inv
  handed : ∀ client ∈ s.clients, ∀ entry, Handed client.history entry →
    ∃ e ∈ s.store.added, entry = entryOf e
  published : ∀ client ∈ s.clients, ∀ fields entryId,
    ⟨.xadd fields, .ok entryId⟩ ∈ client.history →
      ∃ id : StreamId, entryId = id.text ∧ (id, fields) ∈ s.store.added
  gone : ∀ e ∈ s.store.added, e ∈ s.store.stream.entries ∨
    ∃ client ∈ s.clients, ∃ x ∈ client.history, SettlesEntry ids e.1 x.1
  justified : ∀ client ∈ s.clients, ∀ x ∈ client.history,
    Justified F conv client.args.2 client.history x.1

/-- Every call follows its rule. -/
def Following (s : QueueService) : Prop :=
  Service.Sound (fun _ _ _ => True) (fun args => Justified F conv args.2)
    (fun args o h => ∀ result, o = .ok result → args.2.Returns F conv result h) s

variable {F conv socketTimeout ids} {s : QueueService}

theorem kept_initial : Kept F conv ids ⟨RedisServer.initial, []⟩ where
  store := inv_initial
  handed _ h := by cases h
  published _ h := by cases h
  gone _ h := by cases h
  justified _ h := by cases h

theorem Kept.start (h : Kept F conv ids s) (args : ℕ × QueueCall) (rest : QueueProg QueueResult) :
    Kept F conv ids ⟨s.store, s.clients ++ [⟨args, [], rest⟩]⟩ where
  store := h.store
  handed client hclient entry hentry := by
    rcases List.mem_append.1 hclient with hclient | hclient
    · exact h.handed client hclient entry hentry
    · rw [List.mem_singleton.1 hclient] at hentry
      obtain ⟨x, hx, -⟩ := hentry
      cases hx
  published client hclient fields entryId hmem := by
    rcases List.mem_append.1 hclient with hclient | hclient
    · exact h.published client hclient fields entryId hmem
    · rw [List.mem_singleton.1 hclient] at hmem
      cases hmem
  gone e he := by
    refine (h.gone e he).imp_right ?_
    rintro ⟨client, hclient, hx⟩
    exact ⟨client, List.mem_append_left _ hclient, hx⟩
  justified client hclient x hx := by
    rcases List.mem_append.1 hclient with hclient | hclient
    · exact h.justified client hclient x hx
    · rw [List.mem_singleton.1 hclient] at hx
      cases hx

theorem Kept.move (h : Kept F conv ids s) {store : RedisServer} (hmoves : Moves s.store store) :
    Kept F conv ids ⟨store, s.clients⟩ := by
  obtain ⟨hinv, hadded, hkept, -⟩ := hmoves.does h.store
  refine ⟨hinv, ?_, ?_, fun e he => ?_, h.justified⟩
  · intro client hclient entry hentry
    obtain ⟨e, he, heq⟩ := h.handed client hclient entry hentry
    exact ⟨e, hadded he, heq⟩
  · intro client hclient fields entryId hmem
    obtain ⟨id, hid, he⟩ := h.published client hclient fields entryId hmem
    exact ⟨id, hid, hadded he⟩
  · rcases hkept e he with hmem | ⟨hold, hnot⟩
    · exact .inl hmem
    · exact .inr ((h.gone e hold).resolve_left hnot)

/-- One answer: an entry that it takes away is settled by the call. -/
theorem Kept.answered (h : Kept F conv ids s) {k : ℕ} {client : QueueClient} {op : QueueOp}
    {next : Except QueueRaised op.Reply → QueueProg QueueResult} {a : Except QueueRaised op.Reply}
    {store : RedisServer} (hk : s.clients[k]? = some client)
    (hop : Justified F conv client.args.2 client.history op)
    (hdoes : Does ids s.store op a store) :
    Kept F conv ids (s.answered k client op next a store) where
  store := hdoes.inv
  handed client' hclient' entry := by
    rintro ⟨x, hx, hentry⟩
    obtain ⟨old, hold, -, -, hx | ⟨-, rfl⟩⟩ := Service.mem_history_answered hk hclient' hx
    · obtain ⟨e, he, heq⟩ := h.handed old hold entry ⟨x, hx, hentry⟩
      exact ⟨e, hdoes.added he, heq⟩
    · obtain ⟨e, he, heq⟩ := hdoes.handed entry hentry
      exact ⟨e, hdoes.added (h.store.entries e he), heq⟩
  published client' hclient' fields entryId hx := by
    obtain ⟨old, hold, -, -, hx | ⟨-, heq⟩⟩ := Service.mem_history_answered hk hclient' hx
    · obtain ⟨id, hid, he⟩ := h.published old hold fields entryId hx
      exact ⟨id, hid, hdoes.added he⟩
    · exact hdoes.published fields entryId heq.symm
  gone e he := by
    rcases hdoes.kept e he with hmem | ⟨hold, hnot⟩ | hsettles
    · exact .inl hmem
    · obtain ⟨other, hother, x, hx, hsettles⟩ := (h.gone e hold).resolve_left hnot
      obtain ⟨other', hother', -, hhistory⟩ :=
        Service.Grows.answered hk op next a store other hother
      exact .inr ⟨other', hother', x, hhistory hx, hsettles⟩
    · refine .inr ⟨_, List.mem_set (List.getElem?_eq_some_iff.1 hk).1 _, ⟨op, a⟩, ?_, hsettles⟩
      exact List.mem_append_right _ (List.mem_singleton_self _)
  justified client' hclient' x hx := by
    obtain ⟨old, hold, hargs, hsub, hx⟩ := Service.mem_history_answered hk hclient' hx
    rw [hargs]
    rcases hx with hx | ⟨rfl, rfl⟩
    · exact (h.justified old hold x hx).mono hsub
    · exact hop.mono hsub

theorem Reaches.kept (h : Reaches F conv socketTimeout ids s) :
    Kept F conv ids s ∧ Following F conv s := by
  refine Service.Reaches.keeps ?_ ?_ ?_ ?_ h kept_initial ?_
  · exact fun args => args.2.follows_prog F conv socketTimeout
  · exact fun s args hkept => hkept.start args _
  · exact fun s k client op next a store hkept hk hop hserves =>
      ⟨trivial, hkept.answered hk hop (hserves.does hkept.store)⟩
  · exact fun s store hkept hmoves => hkept.move hmoves
  · exact fun client hclient => by cases hclient

theorem Following.returns (h : Following F conv s) {client : QueueClient}
    (hclient : client ∈ s.clients) {result : QueueResult} (hrest : client.rest = .ret result) :
    client.args.2.Returns F conv result client.history := by
  have hended : client.rest = .ofExcept (.ok result) := hrest
  exact Service.Sound.ended h hclient hended result rfl

/-- A settlement with its reason. -/
theorem Kept.settledBy (h : Kept F conv ids s) {client : QueueClient} (hclient : client ∈ s.clients)
    {e : StreamId × StreamFields} (he : e ∈ s.store.added)
    {x : Answered QueueOp QueueOp.Reply QueueRaised} (hx : x ∈ client.history)
    (hsettles : SettlesEntry ids e.1 x.1) : SettledBy conv ids client e := by
  have hjustified := h.justified client hclient x hx
  obtain ⟨op, a⟩ := x
  cases op with
  | settle entryId =>
    obtain ⟨delivery, hcall, rfl⟩ := hjustified
    exact .inl ⟨delivery, hcall, hsettles⟩
  | settlePoison poison =>
    rcases hjustified with ⟨delivery, reasonCode, hcall, rfl⟩ | ⟨entry, hentry, hpoison, rfl⟩
    · exact .inr (.inl ⟨delivery, reasonCode, hcall, hsettles⟩)
    · obtain ⟨e', he', rfl⟩ := h.handed client hclient entry hentry
      have hid : e'.1 = e.1 := by
        have hread : ids.read e'.1.text = some e.1 := hsettles
        rw [ids.read_text, Option.some.injEq] at hread
        exact hread
      rw [h.store.unique he' he hid] at hentry hpoison
      exact .inr (.inr ⟨hentry, hpoison⟩)
  | _ => cases hsettles

/-- **Nothing is lost, and nothing is made up.**  Whatever the calls of the queues do, in whatever
order, with answers lost and the group destroyed at any time: an entry that was ever added is in the
stream until a call settles it, which was told to or was handed the entry and found no envelope in
it; what is in the stream is yet to be read by the group, or is pending; and what a call was handed
is what was added. -/
theorem nothing_lost (h : Reaches F conv socketTimeout ids s) :
    (∀ e ∈ s.store.added, e ∈ s.store.stream.entries ∨
      ∃ client ∈ s.clients, SettledBy conv ids client e) ∧
    (∀ g, s.store.stream.group = some g → ∀ e ∈ s.store.stream.entries,
      g.lastDelivered < e.1 ∨ ∃ p ∈ g.pending, p.id = e.1) ∧
    ∀ client ∈ s.clients, ∀ entry, Handed client.history entry →
      ∃ e ∈ s.store.added, entry = entryOf e := by
  obtain ⟨hkept, -⟩ := h.kept
  refine ⟨fun e he => (hkept.gone e he).imp_right ?_, fun g hg e he => ?_, hkept.handed⟩
  · rintro ⟨client, hclient, x, hx, hsettles⟩
    exact ⟨client, hclient, hkept.settledBy hclient he hx hsettles⟩
  · rcases lt_or_ge g.lastDelivered e.1 with hlt | hle
    · exact .inl hlt
    · exact .inr ((hkept.store.stream.group g hg).covered e he hle)

/-! ## What is published -/

/-- Whatever a call returns is what the entries it was handed say. -/
theorem handed_of_returns {call : QueueCall} {deliveries : List StreamDelivery} {h : QueueHistory}
    (hreturns : call.Returns F conv (.deliveries deliveries) h) :
    ∀ delivery ∈ deliveries, ∃ entry, Handed h entry ∧ delivery.streamEntryId = entry.entryId ∧
      decodeFields conv entry.fields = .ok delivery.envelope := by
  intro delivery hdelivery
  cases call with
  | read consumer count block =>
    obtain ⟨block, entries, hread, hdecoded⟩ := hreturns
    obtain ⟨entry, hentry, hmatches⟩ := hdecoded.sound delivery hdelivery
    exact ⟨entry, ⟨_, hread, hentry⟩, hmatches⟩
  | reclaim consumer minimumIdle count =>
    obtain ⟨startId, result, hclaim, -, hdecoded⟩ := hreturns
    obtain ⟨entry, hentry, hmatches⟩ := hdecoded.sound delivery hdelivery
    exact ⟨entry, ⟨_, hclaim, hentry⟩, hmatches⟩
  | _ => cases hreturns

/-- **What is published stays until it is settled.**  When `publish` has returned, the envelope is
in the stream under the returned id, until a call acknowledges or quarantines this very id: it is
never taken for poison.  Whoever is given the entry is given the envelope, with its keys in
order. -/
theorem published_kept (hfaithful : conv.Faithful) (hwired : conv.Wired F)
    (h : Reaches F conv socketTimeout ids s) {client : QueueClient} (hclient : client ∈ s.clients)
    {envelope : MessageEnvelope} (hcall : client.args.2 = .publish envelope)
    (hplain : envelope.Plain)
    (hwithin : ∀ raw, encodeEnvelope F conv envelope = .ok raw → conv.Within raw)
    {entryId : String} (hrest : client.rest = .ret (.entryId entryId)) :
    ∃ id : StreamId, entryId = id.text ∧
      ((∃ fields, (id, fields) ∈ s.store.stream.entries) ∨ ∃ other ∈ s.clients,
        (∃ delivery, other.args.2 = .acknowledge delivery ∧
          ids.read delivery.streamEntryId = some id) ∨
        ∃ delivery reasonCode, other.args.2 = .quarantine delivery reasonCode ∧
          ids.read delivery.streamEntryId = some id) ∧
      ∀ other ∈ s.clients, ∀ deliveries, other.rest = .ret (.deliveries deliveries) →
        ∀ delivery ∈ deliveries, delivery.streamEntryId = entryId →
          delivery.envelope = envelope.sorted := by
  obtain ⟨hkept, hfollowing⟩ := h.kept
  have hreturns := hfollowing.returns hclient hrest
  rw [hcall] at hreturns
  obtain ⟨raw, hencode, hmem⟩ := hreturns
  obtain ⟨id, rfl, hadded⟩ := hkept.published client hclient _ _ hmem
  have hdecoded :=
    decodeFields_encodeEnvelope hfaithful hwired hplain hencode (hwithin raw hencode) none
  refine ⟨id, rfl, ?_, fun other hother deliveries hended delivery hdelivery hid => ?_⟩
  · rcases hkept.gone _ hadded with hentries | ⟨other, hother, x, hx, hsettles⟩
    · exact .inl ⟨_, hentries⟩
    · refine .inr ⟨other, hother, ?_⟩
      rcases hkept.settledBy hother hadded hx hsettles with
        hack | hquarantine | ⟨-, message, hpoison⟩
      · exact .inl hack
      · exact .inr hquarantine
      · exact absurd (hdecoded.symm.trans hpoison) (by simp)
  · have hother' := hfollowing.returns hother hended
    obtain ⟨entry, hentry, hentryId, hmatches⟩ := handed_of_returns hother' delivery hdelivery
    obtain ⟨e, he, rfl⟩ := hkept.handed other hother entry hentry
    have hsame : e.1 = id := ids.text_injective (hentryId.symm.trans hid)
    rw [hkept.store.unique he hadded hsame] at hmatches
    have hequal := hmatches.symm.trans hdecoded
    rwa [Except.ok.injEq] at hequal

/-! ## What is settled -/

/-- The entry is gone, and whoever was handed it was so before. -/
structure Gone (s : QueueService) (e : StreamId × StreamFields) (t : QueueService) : Prop where
  store : t.store.Inv
  added : e ∈ t.store.added
  notIn : e ∉ t.store.stream.entries
  before : ∀ (j : ℕ) (client : QueueClient), t.clients[j]? = some client →
    Handed client.history (entryOf e) →
      ∃ client, s.clients[j]? = some client ∧ Handed client.history (entryOf e)

variable {t : QueueService} {e : StreamId × StreamFields}

theorem Gone.start (h : Gone s e t) (args : ℕ × QueueCall) (rest : QueueProg QueueResult) :
    Gone s e ⟨t.store, t.clients ++ [⟨args, [], rest⟩]⟩ := by
  refine ⟨h.store, h.added, h.notIn, fun j client hj hhanded => ?_⟩
  rcases Service.getElem?_start hj with hold | ⟨-, rfl⟩
  · exact h.before j client hold hhanded
  · obtain ⟨x, hx, -⟩ := hhanded
    cases hx

theorem Gone.answered (h : Gone s e t) {k : ℕ} {client : QueueClient} {op : QueueOp}
    {next : Except QueueRaised op.Reply → QueueProg QueueResult} {a : Except QueueRaised op.Reply}
    {store : RedisServer} (hk : t.clients[k]? = some client) (hdoes : Does ids t.store op a store) :
    Gone s e (t.answered k client op next a store) := by
  refine ⟨hdoes.inv, hdoes.added h.added, hdoes.gone e h.added h.notIn,
    fun j other hj hhanded => ?_⟩
  obtain ⟨old, hold, -, hhistory⟩ := Service.getElem?_answered hk hj
  refine h.before j old hold ?_
  rcases hhistory with ⟨-, -, hhistory⟩ | ⟨-, hhistory⟩
  · obtain ⟨x, hx, hentry⟩ := hhanded
    rw [hhistory] at hx
    rcases List.mem_append.1 hx with hx | hx
    · exact ⟨x, hx, hentry⟩
    · rw [List.mem_singleton.1 hx] at hentry
      obtain ⟨e', he', heq⟩ := hdoes.handed _ hentry
      -- an entry that is handed out is in the stream, and an id stands for one entry
      have hid : e'.1 = e.1 := ids.text_injective (congrArg StreamEntry.entryId heq).symm
      rw [h.store.unique (h.store.entries e' he') h.added hid] at he'
      exact absurd he' h.notIn
  · rwa [hhistory] at hhanded

end

end RedisStreamQueue

/-! ## A queue -/

namespace RedisStreamQueue

open RedisServer

/-- Every operation is answered, as long as there are ids. -/
def answerNext (args : ℕ × QueueCall) (op : QueueOp) (r : RedisServer) :
    Option (Except QueueRaised op.Reply × RedisServer) := do
  let newId ← StreamId.ofParts (r.stream.lastId.ms + 1) 0
  if r.stream.lastId < newId then some (answer redisIds args.1 newId r op) else none

theorem serves_answerNext (args : ℕ × QueueCall) (op : QueueOp) (r : RedisServer)
    (a : Except QueueRaised op.Reply) (r' : RedisServer) (h : answerNext args op r = some (a, r')) :
    Serves redisIds args op r a r' := by
  obtain ⟨newId, -, h⟩ := Option.bind_eq_some_iff.1 h
  rw [Option.ite_none_right_eq_some, Option.some.injEq] at h
  obtain ⟨hlt, heq⟩ := h
  have hfresh : Fresh r newId op := fun _ _ => hlt
  have hserves : Serves redisIds args op r _ _ := .answered hfresh
  rwa [heq] at hserves

/-- A call that is served before anything else happens. -/
def served (F : Json.FloatText) (conv : Conversions) (s : QueueService) (call : QueueCall) :
    QueueService :=
  s.serve (fun args => args.2.prog F conv none) answerNext 20 (0, call)

theorem Reaches.served {F : Json.FloatText} {conv : Conversions} {s : QueueService}
    (h : Reaches F conv none redisIds s) (call : QueueCall) :
    Reaches F conv none redisIds (served F conv s call) :=
  Service.reaches_serve serves_answerNext h 20 (0, call)

theorem args_served (F : Json.FloatText) (conv : Conversions) (s : QueueService)
    (call : QueueCall) :
    (served F conv s call).clients.map (·.args) = s.clients.map (·.args) ++ [(0, call)] :=
  Service.args_serve ..

theorem one_valid : 1 < 18446744073709551616 ∧ 0 < 18446744073709551616 := by decide

/-- An entry without an envelope. -/
def blankEntry : StreamId × StreamFields := (⟨1, 0, one_valid⟩, ⟨none, none⟩)

def blankService : QueueService := ⟨RedisServer.initial.add blankEntry.1 blankEntry.2, []⟩

theorem blankService_reached :
    Reaches OpenAI.bitsText plainConversions none redisIds blankService :=
  (Service.Reaches.refl _).tail (.move (.added (by decide)))

/-- It is read. -/
def blankRead : QueueService :=
  served OpenAI.bitsText plainConversions blankService (.read "worker" 1 0)

theorem blankRead_gone : blankRead.store.added.map (·.1) = [blankEntry.1] ∧
    blankRead.store.stream.entries.length = 0 := by
  decide +kernel

theorem blankRead_reached : Reaches OpenAI.bitsText plainConversions none redisIds blankRead :=
  blankService_reached.served (.read "worker" 1 0)

theorem exists_blankRead_gone :
    ∃ e ∈ blankRead.store.added, e ∉ blankRead.store.stream.entries := by
  obtain ⟨hadded, hentries⟩ := blankRead_gone
  rw [List.length_eq_zero_iff] at hentries
  obtain ⟨e, hsingle, -⟩ := List.map_eq_singleton_iff.1 hadded
  refine ⟨e, ?_, ?_⟩
  · rw [hsingle]
    exact List.mem_singleton_self e
  · rw [hentries]
    exact List.not_mem_nil

theorem nothing_lost_sample : ∃ s, Reaches OpenAI.bitsText plainConversions none redisIds s ∧
    ∃ e ∈ s.store.added, e ∉ s.store.stream.entries ∧
      ∃ client ∈ s.clients, SettledBy plainConversions redisIds client e := by
  obtain ⟨e, hadded, hgone⟩ := exists_blankRead_gone
  obtain ⟨hsettled, -, -⟩ := nothing_lost blankRead_reached
  exact ⟨blankRead, blankRead_reached, e, hadded, hgone, (hsettled e hadded).resolve_left hgone⟩

/-- It is read once more. -/
def blankReadAgain : QueueService :=
  served OpenAI.bitsText plainConversions blankRead (.read "worker" 1 0)

/-- An envelope. -/
def plainEnvelope : MessageEnvelope := (plainDelivery (UUID.ofNat 1)).envelope

/-- It is published. -/
def publishedService : QueueService :=
  served OpenAI.bitsText wiredConversions ⟨RedisServer.initial, []⟩ (.publish plainEnvelope)

def entryId? : QueueProg QueueResult → Option String
  | .ret (.entryId entryId) => some entryId
  | _ => none

theorem eq_ret_of_entryId? {p : QueueProg QueueResult} {entryId : String}
    (h : entryId? p = some entryId) : p = .ret (.entryId entryId) := by
  unfold entryId? at h
  split at h
  · cases h
    rfl
  · cases h

theorem publishedService_entryIds :
    publishedService.clients.map (fun client => entryId? client.rest) = [some "1-0"] := by
  decide +kernel

theorem plainEnvelope_plain : plainEnvelope.Plain := by
  constructor <;> constructor <;> decide

theorem published_kept_sample : ∃ client ∈ publishedService.clients, ∃ id : StreamId,
    "1-0" = id.text ∧ ∀ other ∈ publishedService.clients, ∀ deliveries,
      other.rest = .ret (.deliveries deliveries) → ∀ delivery ∈ deliveries,
        delivery.streamEntryId = "1-0" → delivery.envelope = plainEnvelope.sorted := by
  obtain ⟨client, hsingle, hid⟩ := List.map_eq_singleton_iff.1 publishedService_entryIds
  have hclient : client ∈ publishedService.clients := by
    rw [hsingle]
    exact List.mem_singleton_self client
  have hargs : client.args = (0, .publish plainEnvelope) := by
    have hall := args_served OpenAI.bitsText wiredConversions ⟨RedisServer.initial, []⟩
      (.publish plainEnvelope)
    rw [← publishedService, hsingle] at hall
    exact (List.cons.inj hall).1
  have hreached : Reaches OpenAI.bitsText wiredConversions none redisIds publishedService :=
    Reaches.served (.refl _) _
  obtain ⟨id, htext, -, hdeliveries⟩ := published_kept wiredConversions_faithful
    wiredConversions_wired hreached hclient (by rw [hargs]) plainEnvelope_plain
    (fun raw _ => wiredConversions_within raw) (eq_ret_of_entryId? hid)
  exact ⟨client, hclient, id, htext, hdeliveries⟩

end RedisStreamQueue

end AegisPlatform
