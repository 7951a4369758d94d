import AegisPlatform.Lib.Clients
import AegisPlatform.Queueing.Wire

/-!
# The queue over a Redis stream

`RedisStreamQueue`, as programs over what they call: the commands of a Redis server, and the fields
of the queue itself, which all its calls share.

* `QueueOp` — what a call of the queue may do.
* `ensureGroup`, `publish`, `read`, `acknowledge`, `quarantine`, `pending`, `reclaim` — the code.
* `QueueCall.prog` — a call with its arguments.
-/

namespace AegisPlatform

open Fallible Effects Effects.Prog

/-! ## What a call does -/

/-- The exceptions of the Redis client. -/
inductive RedisError where
  | connection
  | timeout
  /-- A `ResponseError` with `BUSYGROUP`, or with `NOGROUP`, in its text. -/
  | busyGroup
  | noGroup
  | response
  deriving DecidableEq, Repr

/-- What is raised in the course of a call. -/
inductive QueueRaised where
  | redis (error : RedisError)
  | retryableQueueError (message : String)
  /-- `PermanentQueueError` and `ValueError`. -/
  | raised (error : Raised)
  /-- What the decoder raises beside `PoisonMessageError`. -/
  | decoding (error : PyError)
  /-- The cancellation of the task. -/
  | cancelled
  deriving DecidableEq, Repr

/-- An entry of the list of pending entries. -/
structure PendingEntry where
  streamEntryId : String
  consumer : String
  idleMilliseconds : ℤ
  deliveryCount : ℤ
  deriving DecidableEq, Repr

/-- What a call of the queue may do: use its fields, or send a command. -/
inductive QueueOp where
  | groupReady
  | setGroupReady (ready : Bool)
  /-- `_reclaim_cursor_by_consumer.get(consumer, "0-0")`. -/
  | reclaimCursor (consumer : String)
  | setReclaimCursor (consumer cursor : String)
  | clearReclaimCursors
  | xgroupCreate
  | xadd (fields : StreamFields)
  | xreadgroup (consumer : String) (count : ℤ) (block : Option ℤ)
  /-- `XACK` and `XDEL`, in a transaction. -/
  | settle (entryId : String)
  /-- `XADD` of the evidence to the poison stream, `XACK` and `XDEL`, in a transaction. -/
  | settlePoison (poison : Poison)
  | xpendingRange (startId endId : String) (count : ℤ) (idle : Option ℤ)
  | xautoclaim (consumer : String) (minIdle : ℤ) (startId : String) (count : ℤ)

namespace QueueOp

/-- What an operation returns. -/
abbrev Reply : QueueOp → Type
  | groupReady => Bool
  | setGroupReady _ | setReclaimCursor .. | clearReclaimCursors | xgroupCreate | settlePoison _ =>
    Unit
  | reclaimCursor _ | xadd _ => String
  | xreadgroup .. => List StreamEntry
  | settle _ => ℤ
  | xpendingRange .. => List PendingEntry
  | xautoclaim .. => String × List StreamEntry

/-- Is it a command? -/
def isCommand : QueueOp → Bool
  | groupReady | setGroupReady _ | reclaimCursor _ | setReclaimCursor .. | clearReclaimCursors =>
    false
  | _ => true

end QueueOp

abbrev QueueProg := Prog QueueOp QueueOp.Reply QueueRaised

namespace RedisStreamQueue

/-- `_classify_redis_error`. -/
def classifyRedisError : RedisError → QueueRaised
  | .connection | .timeout => .retryableQueueError "redis transport unavailable"
  | .noGroup => .retryableQueueError "redis consumer group missing"
  | .busyGroup | .response => .raised (.permanentQueueError "redis operation rejected")

/-- `_handle_nogroup`. -/
def handleNogroup (error : RedisError) : QueueProg Unit :=
  if error = .noGroup then do
    ask (QueueOp.setGroupReady false)
    ask QueueOp.clearReclaimCursors
  else pure ()

/-- A command, with `except RedisError`. -/
def command (op : QueueOp) : QueueProg op.Reply :=
  tryCatch (ask op) fun
    | .redis error => do
      handleNogroup error
      throw (classifyRedisError error)
    | e => throw e

/-- `xgroup_create`, with the `except` clause of `ensure_group`. -/
def createGroup : QueueProg Unit :=
  tryCatch (ask QueueOp.xgroupCreate) fun
    | .redis .busyGroup => pure ()
    | .redis error => throw (classifyRedisError error)
    | e => throw e

/-- `ensure_group`. -/
def ensureGroup : QueueProg Unit := do
  if ← ask QueueOp.groupReady then return
  createGroup
  ask (QueueOp.setGroupReady true)

/-- `_quarantine_poison`. -/
def quarantinePoison (entryId reasonCode : String) : QueueProg Unit :=
  command (.settlePoison ⟨entryId, reasonCode⟩)

section

variable (F : Json.FloatText) (conv : Conversions)

/-- `publish`. -/
def publish (envelope : MessageEnvelope) : QueueProg String := do
  ensureGroup
  let encoded ← Prog.ofExcept ((encodeEnvelope F conv envelope).mapError .raised)
  command (.xadd ⟨some (.bytes encoded), none⟩)

/-- `QueueDelivery(…)`. -/
def deliveryOf (entry : StreamEntry) (envelope : MessageEnvelope) (deliveryCount idle : ℤ) :
    Except QueueRaised StreamDelivery :=
  if h : 1 ≤ deliveryCount ∧ 0 ≤ idle then .ok ⟨⟨envelope⟩, entry.entryId, ⟨deliveryCount, idle, h⟩⟩
  else .error (.raised (.valueError "invalid delivery metadata"))

/-- `_decode_entries`, for one entry. -/
def decodeEntry (entry : StreamEntry) (deliveryCount idle : ℤ) :
    QueueProg (Option StreamDelivery) :=
  match decodeFields conv entry.fields with
  | .ok envelope => some <$> Prog.ofExcept (deliveryOf entry envelope deliveryCount idle)
  | .error (.poisonMessageError _) => do
    quarantinePoison entry.entryId "invalid_envelope"
    return none
  | .error e => throw (.decoding e)

/-- `_decode_entries`, each entry with its own metadata. -/
def decodeEntries (metadata : StreamEntry → ℤ × ℤ) :
    List StreamEntry → QueueProg (List StreamDelivery)
  | [] => pure []
  | entry :: rest => do
    let delivery? ← decodeEntry conv entry (metadata entry).1 (metadata entry).2
    let deliveries ← decodeEntries metadata rest
    return delivery?.toList ++ deliveries

/-- `_validate_consumer_read`. -/
def validateConsumerRead (consumer : String) (count block : ℤ) : Except Raised Unit := do
  raiseIf (consumer = "") (.valueError "consumer is required")
  raiseIf (¬ (1 ≤ count ∧ count ≤ 100)) (.valueError "read count must be between 1 and 100")
  raiseIf (¬ (0 ≤ block ∧ block ≤ 60000))
    (.valueError "block_milliseconds must be between 0 and 60000")

/-- The message for a blocking interval that the socket does not outlast. -/
def blockMessage (block : ℤ) (socketTimeout : ℚ) : String :=
  "block_milliseconds (" ++ String.ofList (Numeral.integer block) ++
    " ms) must be less than the Redis socket timeout (" ++
    String.ofList (Numeral.integer ⌊socketTimeout * 1000⌋) ++
    " ms); increase socket_timeout or reduce block_milliseconds"

/-- `read`; the socket timeout is a setting of the client, in seconds. -/
def read (socketTimeout : Option ℚ) (consumer : String) (count block : ℤ) :
    QueueProg (List StreamDelivery) := do
  ensureGroup
  Prog.ofExcept ((validateConsumerRead consumer count block).mapError .raised)
  if 0 < block then
    match socketTimeout with
    | some timeout => Prog.ofExcept (raiseIf (timeout * 1000 ≤ block)
        (.raised (.valueError (blockMessage block timeout))))
    | none => pure ()
  let entries ← command (.xreadgroup consumer count (if 0 < block then some block else none))
  decodeEntries conv (fun _ => (1, 0)) entries

/-- `acknowledge`. -/
def acknowledge (delivery : StreamDelivery) : QueueProg Unit := do
  ensureGroup
  let acknowledged ← command (.settle delivery.streamEntryId)
  Prog.ofExcept (raiseIf (acknowledged ≠ 0 ∧ acknowledged ≠ 1)
    (.raised (.permanentQueueError "unexpected acknowledgement count")))

/-- `quarantine`. -/
def quarantine (delivery : StreamDelivery) (reasonCode : String) : QueueProg Unit := do
  Prog.ofExcept (raiseIf (reasonCode = "" ∨ 128 < reasonCode.length)
    (.raised (.valueError "bounded reason_code is required")))
  quarantinePoison delivery.streamEntryId reasonCode

/-- `pending`. -/
def pending (count minimumIdle : ℤ) (startId endId : String) : QueueProg (List PendingEntry) := do
  ensureGroup
  Prog.ofExcept (raiseIf
    (¬ (1 ≤ count ∧ count ≤ 1000) ∨ minimumIdle < 0 ∨ startId = "" ∨ endId = "")
    (.raised (.valueError "invalid bounded pending query")))
  command (.xpendingRange startId endId count (if minimumIdle = 0 then none else some minimumIdle))

/-- What the pending entries say of an entry; the last one of its id counts. -/
def metadataOf (pending : List PendingEntry) (minimumIdle : ℤ) (entry : StreamEntry) : ℤ × ℤ :=
  match pending.reverse.find? fun p => p.streamEntryId = entry.entryId with
  | some p => (p.deliveryCount, p.idleMilliseconds)
  | none => (2, minimumIdle)

/-- `reclaim`. -/
def reclaim (consumer : String) (minimumIdle count : ℤ) : QueueProg (List StreamDelivery) := do
  ensureGroup
  Prog.ofExcept (raiseIf (consumer = "" ∨ minimumIdle < 1 ∨ ¬ (1 ≤ count ∧ count ≤ 100))
    (.raised (.valueError "invalid bounded reclaim request")))
  let startId ← ask (QueueOp.reclaimCursor consumer)
  let result ← command (.xautoclaim consumer minimumIdle startId count)
  ask (QueueOp.setReclaimCursor consumer result.1)
  if result.2.isEmpty then return []
  let metadata ← pending count 0 startId (if result.1 = "0-0" then "+" else result.1)
  decodeEntries conv (metadataOf metadata minimumIdle) result.2

end

end RedisStreamQueue

/-- A call with its arguments. -/
inductive QueueCall where
  | publish (envelope : MessageEnvelope)
  | read (consumer : String) (count block : ℤ)
  | acknowledge (delivery : StreamDelivery)
  | quarantine (delivery : StreamDelivery) (reasonCode : String)
  | pending (count minimumIdle : ℤ) (startId endId : String)
  | reclaim (consumer : String) (minimumIdle count : ℤ)

/-- What a call returns. -/
inductive QueueResult where
  | entryId (entryId : String)
  | deliveries (deliveries : List StreamDelivery)
  | pending (entries : List PendingEntry)
  | done

open RedisStreamQueue in
def QueueCall.prog (F : Json.FloatText) (conv : Conversions) (socketTimeout : Option ℚ) :
    QueueCall → QueueProg QueueResult
  | publish envelope => .entryId <$> RedisStreamQueue.publish F conv envelope
  | read consumer count block =>
    .deliveries <$> RedisStreamQueue.read conv socketTimeout consumer count block
  | acknowledge delivery => do
    RedisStreamQueue.acknowledge delivery
    return .done
  | quarantine delivery reasonCode => do
    RedisStreamQueue.quarantine delivery reasonCode
    return .done
  | pending count minimumIdle startId endId =>
    .pending <$> RedisStreamQueue.pending count minimumIdle startId endId
  | reclaim consumer minimumIdle count =>
    .deliveries <$> RedisStreamQueue.reclaim conv consumer minimumIdle count

/-! ## What a call may do -/

abbrev QueueHistory := History QueueOp QueueOp.Reply QueueRaised

/-- The entries that an answer hands out. -/
def handedBy : Answered QueueOp QueueOp.Reply QueueRaised → List StreamEntry
  | ⟨.xreadgroup .., .ok entries⟩ => entries
  | ⟨.xautoclaim .., .ok result⟩ => result.2
  | _ => []

/-- The entry was handed to the call. -/
def Handed (h : QueueHistory) (entry : StreamEntry) : Prop := ∃ x ∈ h, entry ∈ handedBy x

theorem Handed.mono {h h' : QueueHistory} (hsub : h ⊆ h') {entry : StreamEntry}
    (hentry : Handed h entry) : Handed h' entry := by
  obtain ⟨x, hx, hmem⟩ := hentry
  exact ⟨x, hsub hx, hmem⟩

/-- The entry has no envelope. -/
def StreamEntry.IsPoison (conv : Conversions) (entry : StreamEntry) : Prop :=
  ∃ message, decodeFields conv entry.fields = .error (.poisonMessageError message)

/-- Why an operation is made: a settlement is asked for, or is due to what was handed out. -/
def Justified (F : Json.FloatText) (conv : Conversions) (call : QueueCall) (h : QueueHistory) :
    QueueOp → Prop
  | .xadd fields => ∃ envelope raw, call = .publish envelope ∧
    encodeEnvelope F conv envelope = .ok raw ∧ fields = ⟨some (.bytes raw), none⟩
  | .settle entryId => ∃ delivery, call = .acknowledge delivery ∧ delivery.streamEntryId = entryId
  | .settlePoison poison =>
    (∃ delivery reasonCode, call = .quarantine delivery reasonCode ∧
      poison = ⟨delivery.streamEntryId, reasonCode⟩) ∨
    ∃ entry, Handed h entry ∧ entry.IsPoison conv ∧ poison = ⟨entry.entryId, "invalid_envelope"⟩
  | _ => True

theorem Justified.mono {F : Json.FloatText} {conv : Conversions} {call : QueueCall}
    {h h' : QueueHistory} (hsub : h ⊆ h') {op : QueueOp} (hop : Justified F conv call h op) :
    Justified F conv call h' op := by
  cases op with
  | settlePoison poison =>
    refine hop.imp_right ?_
    rintro ⟨entry, hentry, hpoison⟩
    exact ⟨entry, hentry.mono hsub, hpoison⟩
  | _ => exact hop

/-- What has become of the entries of a batch: they are decoded, or quarantined. -/
structure Decoded (conv : Conversions) (entries : List StreamEntry)
    (deliveries : List StreamDelivery) (h : QueueHistory) : Prop where
  sound : ∀ delivery ∈ deliveries, ∃ entry ∈ entries,
    delivery.streamEntryId = entry.entryId ∧ decodeFields conv entry.fields = .ok delivery.envelope
  complete : ∀ entry ∈ entries, (∃ delivery ∈ deliveries, delivery.streamEntryId = entry.entryId ∧
    decodeFields conv entry.fields = .ok delivery.envelope) ∨
    entry.IsPoison conv ∧ ⟨.settlePoison ⟨entry.entryId, "invalid_envelope"⟩, .ok ()⟩ ∈ h

/-- What a call has done when it returns. -/
def QueueCall.Returns (F : Json.FloatText) (conv : Conversions) :
    QueueCall → QueueResult → QueueHistory → Prop
  | publish envelope, .entryId entryId, h => ∃ raw, encodeEnvelope F conv envelope = .ok raw ∧
    ⟨.xadd ⟨some (.bytes raw), none⟩, .ok entryId⟩ ∈ h
  | read consumer count _, .deliveries deliveries, h => ∃ block entries,
    ⟨.xreadgroup consumer count block, .ok entries⟩ ∈ h ∧ Decoded conv entries deliveries h
  | acknowledge delivery, .done, h => ∃ n, ⟨.settle delivery.streamEntryId, .ok n⟩ ∈ h
  | quarantine delivery reasonCode, .done, h =>
    ⟨.settlePoison ⟨delivery.streamEntryId, reasonCode⟩, .ok ()⟩ ∈ h
  | pending .., .pending _, _ => True
  | reclaim consumer minimumIdle count, .deliveries deliveries, h => ∃ startId result,
    ⟨.xautoclaim consumer minimumIdle startId count, .ok result⟩ ∈ h ∧
      ⟨.setReclaimCursor consumer result.1, .ok ()⟩ ∈ h ∧ Decoded conv result.2 deliveries h
  | _, _, _ => False

/-! ## Every call is justified -/

namespace RedisStreamQueue

section

variable {F : Json.FloatText} {conv : Conversions} {call : QueueCall} {h : QueueHistory}

/-- An operation that needs no reason. -/
def isFree : QueueOp → Bool
  | .xadd _ | .settle _ | .settlePoison _ => false
  | _ => true

theorem justified_of_isFree {op : QueueOp} (hop : isFree op = true) :
    Justified F conv call h op := by
  cases op <;> first | cases hop; done | trivial

theorem follows_free {α : Type} {p : QueueProg α} (hp : p.Asks fun op => isFree op = true)
    (h : QueueHistory) : p.Follows (Justified F conv call) h fun _ _ => True := by
  have hfree : ∀ h op, isFree op = true → Justified F conv call h op :=
    fun _ _ hop => justified_of_isFree hop
  exact wp_mono (fun _ _ _ _ _ => trivial) p (hp.wp hfree h)

theorem asks_handleNogroup (error : RedisError) :
    (handleNogroup error).Asks fun op => isFree op = true := by
  unfold handleNogroup
  split
  · exact asks_bind (asks_ask rfl) fun _ => asks_ask rfl
  · exact asks_pure _

theorem asks_ensureGroup : ensureGroup.Asks fun op => isFree op = true := by
  refine asks_bind (asks_ask rfl) fun ready => ?_
  cases ready with
  | true => exact asks_pure _
  | false =>
    refine asks_bind (asks_handle (asks_ask rfl) fun e => ?_) fun _ => asks_ask rfl
    split
    · exact asks_pure _
    · exact asks_throw _
    · exact asks_throw _

/-- A command that raises nothing has been answered. -/
theorem follows_command {op : QueueOp} (hop : Justified F conv call h op)
    {R : op.Reply → QueueHistory → Prop} (hR : ∀ a, R a (h ++ [⟨op, .ok a⟩])) :
    (command op).Follows (Justified F conv call) h R := by
  refine wp_handle _ (wp_ask hop fun r _ => ?_)
  cases r with
  | ok a =>
    rintro _ heq
    cases heq
    exact hR a
  | error e =>
    cases e with
    | redis error =>
      exact follows_bind
        ((follows_free (asks_handleNogroup error) _).mono fun _ _ _ => follows_throw)
    | retryableQueueError message => exact follows_throw
    | raised error => exact follows_throw
    | decoding error => exact follows_throw
    | cancelled => exact follows_throw

/-- A validation. -/
theorem follows_check {β : Type} {x : Except QueueRaised Unit} {p : QueueProg β}
    {S : β → QueueHistory → Prop} (hp : p.Follows (Justified F conv call) h S) :
    (Prog.ofExcept x >>= fun _ => p).Follows (Justified F conv call) h S :=
  follows_bind (follows_ofExcept fun _ _ => hp)

theorem follows_publish {envelope : MessageEnvelope} (hcall : call = .publish envelope) :
    (publish F conv envelope).Follows (Justified F conv call) h fun entryId h' => ∃ raw,
      encodeEnvelope F conv envelope = .ok raw ∧
      ⟨.xadd ⟨some (.bytes raw), none⟩, .ok entryId⟩ ∈ h' := by
  refine follows_bind ((follows_free asks_ensureGroup h).mono fun _ h₁ _ => ?_)
  refine follows_bind (follows_ofExcept fun raw hraw => ?_)
  have hencode : encodeEnvelope F conv envelope = .ok raw := by
    generalize encodeEnvelope F conv envelope = result at hraw
    cases result with
    | error e => cases hraw
    | ok bytes =>
      cases hraw
      rfl
  have hop : Justified F conv call h₁ (.xadd ⟨some (.bytes raw), none⟩) :=
    ⟨envelope, raw, hcall, hencode, rfl⟩
  exact follows_command hop fun entryId =>
    ⟨raw, hencode, List.mem_append_right _ (List.mem_singleton_self _)⟩

theorem follows_quarantinePoison {entryId reasonCode : String}
    (hop : Justified F conv call h (.settlePoison ⟨entryId, reasonCode⟩)) :
    (quarantinePoison entryId reasonCode).Follows (Justified F conv call) h fun _ h' =>
      ⟨.settlePoison ⟨entryId, reasonCode⟩, .ok ()⟩ ∈ h' :=
  follows_command hop fun _ => List.mem_append_right _ (List.mem_singleton_self _)

theorem deliveryOf_eq_ok {entry : StreamEntry} {envelope : MessageEnvelope} {count idle : ℤ}
    {delivery : StreamDelivery} (hdelivery : deliveryOf entry envelope count idle = .ok delivery) :
    delivery.streamEntryId = entry.entryId ∧ delivery.envelope = envelope := by
  unfold deliveryOf at hdelivery
  split at hdelivery
  · cases hdelivery
    exact ⟨rfl, rfl⟩
  · cases hdelivery

/-- An entry that was handed out is decoded, or quarantined. -/
theorem follows_decodeEntry {entry : StreamEntry} {count idle : ℤ} (hentry : Handed h entry) :
    (decodeEntry conv entry count idle).Follows (Justified F conv call) h fun delivery? h' =>
      Decoded conv [entry] delivery?.toList h' := by
  unfold decodeEntry
  cases hdecoded : decodeFields conv entry.fields with
  | ok envelope =>
    refine follows_bind (follows_ofExcept fun delivery hdelivery => follows_pure ?_)
    obtain ⟨hid, rfl⟩ := deliveryOf_eq_ok hdelivery
    constructor
    · intro delivery' hmem
      obtain rfl : delivery' = delivery := by simpa using hmem
      exact ⟨entry, List.mem_singleton_self _, hid, hdecoded⟩
    · intro entry' hmem
      obtain rfl := List.mem_singleton.1 hmem
      exact .inl ⟨delivery, by simp, hid, hdecoded⟩
  | error e =>
    cases e with
    | poisonMessageError message =>
      have hpoison : entry.IsPoison conv := ⟨message, hdecoded⟩
      refine follows_bind ((follows_quarantinePoison
        (.inr ⟨entry, hentry, hpoison, rfl⟩)).mono fun _ h' hsettled => follows_pure ?_)
      constructor
      · intro delivery hmem
        cases hmem
      · intro entry' hmem
        obtain rfl := List.mem_singleton.1 hmem
        exact .inr ⟨hpoison, hsettled⟩
    | _ => exact follows_throw

theorem decoded_append {entry : StreamEntry} {rest : List StreamEntry}
    {deliveries deliveries' : List StreamDelivery} {h' : QueueHistory} (hsub : h ⊆ h')
    (hfirst : Decoded conv [entry] deliveries h) (hrest : Decoded conv rest deliveries' h') :
    Decoded conv (entry :: rest) (deliveries ++ deliveries') h' := by
  constructor
  · intro delivery hmem
    rcases List.mem_append.1 hmem with hmem | hmem
    · obtain ⟨entry', hentry', hdecoded⟩ := hfirst.sound delivery hmem
      obtain rfl := List.mem_singleton.1 hentry'
      exact ⟨entry', List.mem_cons_self, hdecoded⟩
    · obtain ⟨entry', hentry', hdecoded⟩ := hrest.sound delivery hmem
      exact ⟨entry', List.mem_cons_of_mem _ hentry', hdecoded⟩
  · intro entry' hmem
    rcases List.mem_cons.1 hmem with rfl | hmem
    · rcases hfirst.complete entry' (List.mem_singleton_self _) with
        ⟨delivery, hd, hdecoded⟩ | hpoison
      · exact .inl ⟨delivery, List.mem_append_left _ hd, hdecoded⟩
      · exact .inr ⟨hpoison.1, hsub hpoison.2⟩
    · rcases hrest.complete entry' hmem with ⟨delivery, hd, hdecoded⟩ | hpoison
      · exact .inl ⟨delivery, List.mem_append_right _ hd, hdecoded⟩
      · exact .inr hpoison

theorem follows_decodeEntries {metadata : StreamEntry → ℤ × ℤ} {entries : List StreamEntry}
    (hentries : ∀ entry ∈ entries, Handed h entry) :
    (decodeEntries conv metadata entries).Follows (Justified F conv call) h fun deliveries h' =>
      Decoded conv entries deliveries h' := by
  induction entries generalizing h with
  | nil => exact follows_pure ⟨fun _ hmem => (by cases hmem), fun _ hmem => (by cases hmem)⟩
  | cons entry rest ih =>
    rw [decodeEntries]
    refine follows_bind ((follows_decodeEntry
      (hentries entry List.mem_cons_self)).grows.mono fun delivery? h₁ hfirst => ?_)
    have hrest : ∀ entry ∈ rest, Handed h₁ entry := fun entry hmem =>
      (hentries entry (List.mem_cons_of_mem _ hmem)).mono hfirst.1
    refine follows_bind ((ih hrest).grows.mono fun deliveries h₂ hdecoded => follows_pure ?_)
    exact decoded_append hdecoded.1 hfirst.2 hdecoded.2

theorem follows_read {socketTimeout : Option ℚ} {consumer : String} {count block : ℤ} :
    (read conv socketTimeout consumer count block).Follows (Justified F conv call) h
      fun deliveries h' => ∃ block entries,
        ⟨.xreadgroup consumer count block, .ok entries⟩ ∈ h' ∧
          Decoded conv entries deliveries h' := by
  have hcommand : ∀ h (block : Option ℤ),
      (command (.xreadgroup consumer count block) >>= decodeEntries conv fun _ => (1, 0)).Follows
        (Justified F conv call) h fun deliveries h' => ∃ block entries,
          ⟨.xreadgroup consumer count block, .ok entries⟩ ∈ h' ∧
            Decoded conv entries deliveries h' := by
    intro h block
    refine follows_bind (follows_command (justified_of_isFree rfl) fun entries => ?_)
    have hmem : ⟨.xreadgroup consumer count block, .ok entries⟩ ∈
        h ++ [(⟨.xreadgroup consumer count block, .ok entries⟩ : Answered _ _ _)] :=
      List.mem_append_right _ (List.mem_singleton_self _)
    refine (follows_decodeEntries fun entry hentry => ⟨_, hmem, hentry⟩).grows.mono ?_
    rintro deliveries h' ⟨hsub, hdecoded⟩
    exact ⟨block, entries, hsub hmem, hdecoded⟩
  refine follows_bind ((follows_free asks_ensureGroup h).mono fun _ h₁ _ => ?_)
  refine follows_check ?_
  by_cases hblock : 0 < block
  · simp only [if_pos hblock]
    cases socketTimeout with
    | none => exact hcommand h₁ _
    | some timeout => exact follows_check (hcommand h₁ _)
  · simp only [if_neg hblock]
    exact hcommand h₁ _

theorem follows_acknowledge {delivery : StreamDelivery} (hcall : call = .acknowledge delivery) :
    (acknowledge delivery).Follows (Justified F conv call) h fun _ h' => ∃ n,
      ⟨.settle delivery.streamEntryId, .ok n⟩ ∈ h' := by
  refine follows_bind ((follows_free asks_ensureGroup h).mono fun _ h₁ _ => ?_)
  have hop : Justified F conv call h₁ (.settle delivery.streamEntryId) := ⟨delivery, hcall, rfl⟩
  refine follows_bind (follows_command hop fun n => follows_ofExcept fun _ _ => ?_)
  exact ⟨n, List.mem_append_right _ (List.mem_singleton_self _)⟩

theorem follows_quarantine {delivery : StreamDelivery} {reasonCode : String}
    (hcall : call = .quarantine delivery reasonCode) :
    (quarantine delivery reasonCode).Follows (Justified F conv call) h fun _ h' =>
      ⟨.settlePoison ⟨delivery.streamEntryId, reasonCode⟩, .ok ()⟩ ∈ h' :=
  follows_check (follows_quarantinePoison (.inl ⟨delivery, reasonCode, hcall, rfl⟩))

theorem asks_command {op : QueueOp} (hop : isFree op = true) :
    (command op).Asks fun op => isFree op = true := by
  refine asks_handle (asks_ask hop) fun e => ?_
  cases e with
  | redis error => exact asks_bind (asks_handleNogroup error) fun _ => asks_throw _
  | _ => exact asks_throw _

theorem asks_pending {count minimumIdle : ℤ} {startId endId : String} :
    (pending count minimumIdle startId endId).Asks fun op => isFree op = true :=
  asks_bind asks_ensureGroup fun _ => asks_bind (asks_ofExcept _) fun _ => asks_command rfl

theorem follows_reclaim {consumer : String} {minimumIdle count : ℤ} :
    (reclaim conv consumer minimumIdle count).Follows (Justified F conv call) h
      fun deliveries h' => ∃ startId result,
        ⟨.xautoclaim consumer minimumIdle startId count, .ok result⟩ ∈ h' ∧
          ⟨.setReclaimCursor consumer result.1, .ok ()⟩ ∈ h' ∧
          Decoded conv result.2 deliveries h' := by
  refine follows_bind ((follows_free asks_ensureGroup h).mono fun _ h₁ _ => ?_)
  refine follows_check (follows_bind (follows_ask (justified_of_isFree rfl) fun startId => ?_))
  refine follows_bind (follows_command (justified_of_isFree rfl) fun result => ?_)
  refine follows_bind (follows_ask (justified_of_isFree rfl) fun _ => ?_)
  generalize hclaimed : h₁ ++ [⟨.reclaimCursor consumer, .ok startId⟩] ++
    [⟨.xautoclaim consumer minimumIdle startId count, .ok result⟩] ++
    [⟨.setReclaimCursor consumer result.1, .ok ()⟩] = h₂
  have hclaim : ⟨.xautoclaim consumer minimumIdle startId count, .ok result⟩ ∈ h₂ := by
    rw [← hclaimed]
    simp
  have hset : ⟨.setReclaimCursor consumer result.1, .ok ()⟩ ∈ h₂ := by
    rw [← hclaimed]
    simp
  split
  · rename_i hempty
    rw [List.isEmpty_iff] at hempty
    refine follows_pure ⟨startId, result, hclaim, hset, ?_⟩
    rw [hempty]
    exact ⟨fun _ hmem => (by cases hmem), fun _ hmem => (by cases hmem)⟩
  · refine follows_bind ((follows_free asks_pending h₂).grows.mono fun metadata h₃ hsub => ?_)
    refine (follows_decodeEntries fun entry hentry =>
      ⟨_, hsub.1 hclaim, hentry⟩).grows.mono fun deliveries h₄ hdecoded => ?_
    exact ⟨startId, result, hdecoded.1 (hsub.1 hclaim), hdecoded.1 (hsub.1 hset), hdecoded.2⟩

end

end RedisStreamQueue

/-- **A call has reasons for what it does**, and what it returns is what it has done. -/
theorem QueueCall.follows_prog (F : Json.FloatText) (conv : Conversions) (socketTimeout : Option ℚ)
    (call : QueueCall) : (call.prog F conv socketTimeout).Follows (Justified F conv call) []
      (call.Returns F conv) := by
  cases call with
  | publish envelope =>
    exact follows_bind ((RedisStreamQueue.follows_publish rfl).mono fun _ _ h => follows_pure h)
  | read consumer count block =>
    exact follows_bind (RedisStreamQueue.follows_read.mono fun _ _ h => follows_pure h)
  | acknowledge delivery =>
    exact follows_bind ((RedisStreamQueue.follows_acknowledge rfl).mono fun _ _ h => follows_pure h)
  | quarantine delivery reasonCode =>
    exact follows_bind ((RedisStreamQueue.follows_quarantine rfl).mono fun _ _ h => follows_pure h)
  | pending count minimumIdle startId endId =>
    exact follows_bind ((RedisStreamQueue.follows_free RedisStreamQueue.asks_pending _).mono
      fun _ _ _ => follows_pure trivial)
  | reclaim consumer minimumIdle count =>
    exact follows_bind (RedisStreamQueue.follows_reclaim.mono fun _ _ h => follows_pure h)

end AegisPlatform
