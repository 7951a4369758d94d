import AegisPlatform.Lib.Streams
import AegisPlatform.Lib.Numeral
import AegisPlatform.Queueing.StreamQueue

/-!
# A server of streams

The server that the queues use: one stream with one group of consumers, and the stream of poison
evidence.  Beside them stand the fields of the queues, and everything the stream was ever given.

* `StreamId` — milliseconds and a number; `IdReader` — how the server reads ids.
* `RedisServer.answer` — what the server answers to an operation, and what it does.
* `RedisServer.Serves`, `RedisServer.Moves` — answers may be lost, and the group may be destroyed.
* `Serves.does` — what an operation keeps: an entry goes only if it is settled.
-/

namespace AegisPlatform

open Streams Effects

/-! ## Ids -/

/-- Milliseconds, and a number among the entries of one millisecond; both have 64 bits. -/
structure StreamId where
  ms : ℕ
  seq : ℕ
  valid : ms < 18446744073709551616 ∧ seq < 18446744073709551616

namespace StreamId

/-- The two parts as one number. -/
def key (id : StreamId) : ℕ := id.ms * 18446744073709551616 + id.seq

theorem key_injective : Function.Injective key := by
  rintro ⟨ms, seq, hms, hseq⟩ ⟨ms', seq', hms', hseq'⟩ h
  simp only [key] at h
  obtain rfl : ms = ms' := by omega
  obtain rfl : seq = seq' := by omega
  rfl

instance instLinearOrder : LinearOrder StreamId :=
  @LinearOrder.lift' StreamId ℕ Nat.instLinearOrder key key_injective

theorem zero_valid : 0 < 18446744073709551616 ∧ 0 < 18446744073709551616 := by decide

/-- The id that the server gives to no entry. -/
def zero : StreamId := ⟨0, 0, zero_valid⟩

theorem zero_le (id : StreamId) : zero ≤ id := Nat.zero_le id.key

instance instOrderBot : OrderBot StreamId where
  bot := zero
  bot_le := zero_le

def text (id : StreamId) : String :=
  String.ofList (Numeral.natural id.ms ++ '-' :: Numeral.natural id.seq)

theorem text_ne_empty (id : StreamId) : id.text ≠ "" := by
  intro h
  have hlist := congrArg String.toList h
  rw [text, String.toList_ofList] at hlist
  simp at hlist

theorem text_bot : text ⊥ = "0-0" := by decide

/-- An id of its two parts, if they have 64 bits. -/
def ofParts (ms seq : ℕ) : Option StreamId :=
  if h : ms < 18446744073709551616 ∧ seq < 18446744073709551616 then some ⟨ms, seq, h⟩ else none

/-- The id that a text stands for; the second part may be left out. -/
def parse (t : String) : Option StreamId := do
  let ms ← Numeral.readNatural (t.toList.takeWhile (· ≠ '-'))
  match t.toList.dropWhile (· ≠ '-') with
  | [] => ofParts ms 0
  | _ :: digits => do
    let seq ← Numeral.readNatural digits
    ofParts ms seq

theorem parse_text (id : StreamId) : parse id.text = some id := by
  have hdigits : ∀ c ∈ Numeral.natural id.ms, decide (c ≠ '-') = true := by
    intro c hc
    refine decide_eq_true ?_
    rintro rfl
    exact absurd (Numeral.isDigit_of_mem_natural hc) (by decide)
  unfold parse text
  rw [String.toList_ofList, List.takeWhile_append_of_pos hdigits,
    List.dropWhile_append_of_pos hdigits, List.takeWhile_cons_of_neg (by simp),
    List.dropWhile_cons_of_neg (by simp), List.append_nil]
  simp only [Numeral.readNatural_natural, Option.bind_eq_bind, Option.bind_some]
  exact dif_pos id.valid

end StreamId

/-- How the server reads an id, and the two ends of a range of ids. -/
structure IdReader where
  read : String → Option StreamId
  read_text : ∀ id : StreamId, read id.text = some id
  range : String → String → Option (StreamId → Bool)

theorem IdReader.text_injective (ids : IdReader) {id id' : StreamId} (h : id.text = id'.text) :
    id = id' := by
  have hread := ids.read_text id
  rw [h, ids.read_text, Option.some.injEq] at hread
  exact hread.symm

/-- The ids as they are read, and the ranges with `-` and `+` for their ends. -/
def redisIds : IdReader where
  read := StreamId.parse
  read_text := StreamId.parse_text
  range startId endId := do
    let first ← if startId = "-" then some StreamId.zero else StreamId.parse startId
    if endId = "+" then return fun id => decide (first ≤ id)
    else do
      let last ← StreamId.parse endId
      return fun id => decide (first ≤ id) && decide (id ≤ last)

/-! ## The server -/

/-- What a queue keeps between its calls. -/
structure QueueFields where
  groupReady : Bool := false
  reclaimCursor : String → String := fun _ => "0-0"

structure RedisServer where
  stream : Streams.Stream StreamId String StreamFields
  /-- Every entry that was ever added. -/
  added : List (StreamId × StreamFields)
  poison : List Poison
  clock : ℤ
  queues : ℕ → QueueFields

/-- An entry as the client library gives it. -/
def entryOf (e : StreamId × StreamFields) : StreamEntry := ⟨e.1.text, e.2, e.1.text_ne_empty⟩

namespace RedisServer

def initial : RedisServer := ⟨⟨[], ⊥, none⟩, [], [], 0, fun _ => {}⟩

def setQueue (r : RedisServer) (queue : ℕ) (fields : QueueFields) : RedisServer :=
  { r with queues := Function.update r.queues queue fields }

/-- An entry is added under a new id. -/
def add (r : RedisServer) (id : StreamId) (fields : StreamFields) : RedisServer :=
  { r with stream := r.stream.add id fields, added := r.added ++ [(id, fields)] }

/-- A pending entry as the client library gives it. -/
def pendingOf (r : RedisServer) (p : Streams.Pending StreamId String) : PendingEntry :=
  ⟨p.id.text, p.consumer, r.clock - p.deliveredAt, p.deliveries⟩

/-- How many entries of the id are pending. -/
def pendingCount (r : RedisServer) (id : StreamId) : ℤ :=
  match r.stream.group with
  | some g => (g.pending.filter (·.id = id)).length
  | none => 0

section

variable (ids : IdReader)

/-- What is answered to an operation of a queue, and what becomes of the server; an entry that is
added gets the new id. -/
def answer (queue : ℕ) (newId : StreamId) (r : RedisServer) :
    (op : QueueOp) → Except QueueRaised op.Reply × RedisServer
  | .groupReady => (.ok (r.queues queue).groupReady, r)
  | .setGroupReady ready => (.ok (), r.setQueue queue { r.queues queue with groupReady := ready })
  | .reclaimCursor consumer => (.ok ((r.queues queue).reclaimCursor consumer), r)
  | .setReclaimCursor consumer cursor => (.ok (), r.setQueue queue { r.queues queue with
      reclaimCursor := Function.update (r.queues queue).reclaimCursor consumer cursor })
  | .clearReclaimCursors => (.ok (), r.setQueue queue { r.queues queue with
      reclaimCursor := fun _ => "0-0" })
  | .xgroupCreate =>
    match r.stream.create ⊥ with
    | some stream => (.ok (), { r with stream := stream })
    | none => (.error (.redis .busyGroup), r)
  | .xadd fields => (.ok newId.text, r.add newId fields)
  | .xreadgroup consumer count _ =>
    match r.stream.read consumer count.toNat r.clock with
    | some (entries, stream) => (.ok (entries.map entryOf), { r with stream := stream })
    | none => (.error (.redis .noGroup), r)
  | .settle entryId =>
    match ids.read entryId with
    | some id => (.ok (r.pendingCount id), { r with stream := r.stream.settle id })
    | none => (.error (.redis .response), r)
  | .settlePoison poison =>
    -- a transaction goes on after a command that is refused
    match ids.read poison.sourceEntryId with
    | some id => (.ok (), { r with
        stream := r.stream.settle id
        poison := r.poison ++ [poison] })
    | none => (.error (.redis .response), { r with poison := r.poison ++ [poison] })
  | .xpendingRange startId endId count idle =>
    match r.stream.group, ids.range startId endId with
    | none, _ => (.error (.redis .noGroup), r)
    | some _, none => (.error (.redis .response), r)
    | some g, some within =>
      let idlers := g.pending.filter fun p =>
        within p.id && decide (idle.getD 0 ≤ r.clock - p.deliveredAt)
      (.ok ((idlers.take count.toNat).map r.pendingOf), r)
  | .xautoclaim consumer minIdle startId count =>
    match ids.read startId with
    | none => (.error (.redis .response), r)
    | some start =>
      match r.stream.claim consumer minIdle r.clock start count.toNat with
      | some ((next, claimed), stream) =>
        (.ok ((next.getD ⊥).text, claimed.map entryOf), { r with stream := stream })
      | none => (.error (.redis .noGroup), r)

/-- The id of a new entry is past all others. -/
def Fresh (r : RedisServer) (newId : StreamId) (op : QueueOp) : Prop :=
  ∀ fields, op = .xadd fields → r.stream.lastId < newId

/-- Is it unknown whether the command was carried out? -/
def isTransport : QueueRaised → Bool
  | .redis .connection | .redis .timeout | .cancelled => true
  | _ => false

/-- How an operation ends: it is answered, or the answer is lost, or it fails before it does
anything. -/
inductive Serves (args : ℕ × QueueCall) :
    (op : QueueOp) → RedisServer → Except QueueRaised op.Reply → RedisServer → Prop
  | answered {op : QueueOp} {r : RedisServer} {newId : StreamId} : Fresh r newId op →
      Serves args op r (answer ids args.1 newId r op).1 (answer ids args.1 newId r op).2
  | lost {op : QueueOp} {r : RedisServer} {newId : StreamId} {error : QueueRaised} :
      op.isCommand = true → Fresh r newId op → isTransport error = true →
      Serves args op r (.error error) (answer ids args.1 newId r op).2
  | failed {op : QueueOp} {r : RedisServer} {error : QueueRaised} : op.isCommand = true →
      isTransport error = true ∨ error = .redis .response → Serves args op r (.error error) r

/-- What happens without the queues: time passes, the group is destroyed, and others write to the
stream. -/
inductive Moves : RedisServer → RedisServer → Prop
  | tick {r : RedisServer} {clock : ℤ} : r.clock ≤ clock → Moves r { r with clock := clock }
  | destroyed {r : RedisServer} : Moves r { r with stream := r.stream.destroy }
  | added {r : RedisServer} {id : StreamId} {fields : StreamFields} : r.stream.lastId < id →
      Moves r (r.add id fields)

end

/-! ## What an operation does -/

/-- The stream is in order, and holds what it was given. -/
structure Inv (r : RedisServer) : Prop where
  stream : r.stream.Inv
  ordered : r.added.Pairwise fun e e' => e.1 < e'.1
  bounded : ∀ e ∈ r.added, e.1 ≤ r.stream.lastId
  entries : ∀ e ∈ r.stream.entries, e ∈ r.added

theorem inv_initial : initial.Inv where
  stream := Stream.inv_empty
  ordered := .nil
  bounded _ h := by cases h
  entries _ h := by cases h

/-- The same entries, in the hands of others. -/
theorem Inv.regrouped {r : RedisServer} (h : r.Inv)
    {stream : Streams.Stream StreamId String StreamFields} (hinv : stream.Inv)
    (hentries : stream.entries = r.stream.entries)
    (hlast : stream.lastId = r.stream.lastId) :
    ({ r with stream := stream } : RedisServer).Inv where
  stream := hinv
  ordered := h.ordered
  bounded e he := (h.bounded e he).trans hlast.ge
  entries e he := h.entries e (hentries ▸ he)

theorem Inv.add {r : RedisServer} (h : r.Inv) {id : StreamId} (hid : r.stream.lastId < id)
    (fields : StreamFields) : (r.add id fields).Inv where
  stream := h.stream.add hid fields
  ordered := by
    refine List.pairwise_append.2 ⟨h.ordered, List.pairwise_singleton _ _, fun e he e' he' => ?_⟩
    rw [List.mem_singleton.1 he']
    exact (h.bounded e he).trans_lt hid
  bounded e he := by
    rcases List.mem_append.1 he with he | he
    · exact (h.bounded e he).trans hid.le
    · rw [List.mem_singleton.1 he]
      exact le_rfl
  entries e he := by
    rcases List.mem_append.1 he with he | he
    · exact List.mem_append_left _ (h.entries e he)
    · exact List.mem_append_right _ he

/-- What is gone does not come back with a new id. -/
theorem Inv.not_mem_add {r : RedisServer} (h : r.Inv) {id : StreamId} (hid : r.stream.lastId < id)
    {fields : StreamFields} {e : StreamId × StreamFields} (he : e ∈ r.added)
    (hnot : e ∉ r.stream.entries) : e ∉ (r.add id fields).stream.entries := by
  intro hmem
  rcases List.mem_append.1 hmem with hmem | hmem
  · exact hnot hmem
  · rw [List.mem_singleton.1 hmem] at he
    exact absurd (h.bounded _ he) hid.not_ge

theorem Inv.settle {r : RedisServer} (h : r.Inv) (id : StreamId) :
    ({ r with stream := r.stream.settle id } : RedisServer).Inv where
  stream := h.stream.settle id
  ordered := h.ordered
  bounded := h.bounded
  entries e he := h.entries e (List.mem_of_mem_filter he)

/-- An id stands for one entry. -/
theorem Inv.unique {r : RedisServer} (h : r.Inv) {e e' : StreamId × StreamFields}
    (he : e ∈ r.added) (he' : e' ∈ r.added) (hid : e.1 = e'.1) : e = e' := by
  have hnodup : (r.added.map (·.1)).Nodup := by
    rw [List.Nodup, List.pairwise_map]
    exact h.ordered.imp fun hlt => hlt.ne
  exact List.inj_on_of_nodup_map hnodup he he' hid

/-- The operation settles an entry of the id. -/
def SettlesEntry (ids : IdReader) (id : StreamId) : QueueOp → Prop
  | .settle entryId => ids.read entryId = some id
  | .settlePoison poison => ids.read poison.sourceEntryId = some id
  | _ => False

/-- What an operation keeps, hands out and adds. -/
structure Does (ids : IdReader) (r : RedisServer) (op : QueueOp) (a : Except QueueRaised op.Reply)
    (r' : RedisServer) : Prop where
  inv : r'.Inv
  added : r.added ⊆ r'.added
  handed : ∀ entry ∈ handedBy ⟨op, a⟩, ∃ e ∈ r.stream.entries, entry = entryOf e
  published : ∀ fields entryId, (⟨op, a⟩ : Answered QueueOp QueueOp.Reply QueueRaised) =
    ⟨.xadd fields, .ok entryId⟩ → ∃ id : StreamId, entryId = id.text ∧ (id, fields) ∈ r'.added
  kept : ∀ e ∈ r'.added, e ∈ r'.stream.entries ∨ (e ∈ r.added ∧ e ∉ r.stream.entries) ∨
    SettlesEntry ids e.1 op
  gone : ∀ e ∈ r.added, e ∉ r.stream.entries → e ∉ r'.stream.entries

section

variable {ids : IdReader} {r r' : RedisServer} {op : QueueOp} {a : Except QueueRaised op.Reply}

/-- An operation that leaves the entries as they are. -/
theorem Does.quiet (hinv : r'.Inv) (hadded : r'.added = r.added)
    (hentries : r'.stream.entries = r.stream.entries)
    (hhanded : ∀ entry ∈ handedBy ⟨op, a⟩, ∃ e ∈ r.stream.entries, entry = entryOf e)
    (hop : ∀ fields, op ≠ .xadd fields) : Does ids r op a r' where
  inv := hinv
  added e he := hadded ▸ he
  handed := hhanded
  published fields entryId heq := absurd (congrArg Sigma.fst heq) (hop fields)
  kept e he := by
    rw [hadded] at he
    by_cases hmem : e ∈ r.stream.entries
    · exact .inl (hentries ▸ hmem)
    · exact .inr (.inl ⟨he, hmem⟩)
  gone e _ hnot := hentries ▸ hnot

theorem Does.settled {id : StreamId} (hinv : r'.Inv) (hadded : r'.added = r.added)
    (hentries : r'.stream.entries = (r.stream.settle id).entries)
    (hsettles : SettlesEntry ids id op)
    (hhanded : handedBy ⟨op, a⟩ = []) (hop : ∀ fields, op ≠ .xadd fields) : Does ids r op a r' where
  inv := hinv
  added e he := hadded ▸ he
  handed entry hentry := by
    rw [hhanded] at hentry
    cases hentry
  published fields entryId heq := absurd (congrArg Sigma.fst heq) (hop fields)
  kept e he := by
    rw [hadded] at he
    by_cases hmem : e ∈ r.stream.entries
    · by_cases hid : e.1 = id
      · exact .inr (.inr (hid ▸ hsettles))
      · rw [hentries]
        exact .inl (List.mem_filter.2 ⟨hmem, by simpa using hid⟩)
    · exact .inr (.inl ⟨he, hmem⟩)
  gone e _ hnot hmem := by
    rw [hentries] at hmem
    exact hnot (List.mem_of_mem_filter hmem)

theorem Does.added_new (h : r.Inv) {id : StreamId} (hid : r.stream.lastId < id)
    (fields : StreamFields) : Does ids r (.xadd fields) (.ok id.text) (r.add id fields) where
  inv := h.add hid fields
  added := List.subset_append_left _ _
  handed entry hentry := by cases hentry
  published fields' entryId heq := by
    cases heq
    exact ⟨id, rfl, List.mem_append_right _ (List.mem_singleton_self _)⟩
  kept e he := by
    rcases List.mem_append.1 he with he | he
    · by_cases hmem : e ∈ r.stream.entries
      · exact .inl (List.mem_append_left _ hmem)
      · exact .inr (.inl ⟨he, hmem⟩)
    · exact .inl (List.mem_append_right _ he)
  gone _ he hnot := h.not_mem_add hid he hnot

theorem handed_map {entries : List (StreamId × StreamFields)}
    (hentries : ∀ e ∈ entries, e ∈ r.stream.entries) :
    ∀ entry ∈ entries.map entryOf, ∃ e ∈ r.stream.entries, entry = entryOf e := by
  intro entry hentry
  obtain ⟨e, he, rfl⟩ := List.mem_map.1 hentry
  exact ⟨e, hentries e he, rfl⟩

/-- **What an answer does**, whatever is asked. -/
theorem does_answer (h : r.Inv) {queue : ℕ} {newId : StreamId} (hnew : Fresh r newId op) :
    Does ids r op (answer ids queue newId r op).1 (answer ids queue newId r op).2 := by
  have hnothing : ∀ {op : QueueOp} {a : Except QueueRaised op.Reply}, handedBy ⟨op, a⟩ = [] →
      ∀ entry ∈ handedBy ⟨op, a⟩, ∃ e ∈ r.stream.entries, entry = entryOf e := by
    intro op a hempty entry hentry
    rw [hempty] at hentry
    cases hentry
  cases op with
  | groupReady => exact .quiet h rfl rfl (hnothing rfl) (by simp)
  | setGroupReady ready =>
    exact .quiet ⟨h.stream, h.ordered, h.bounded, h.entries⟩ rfl rfl (hnothing rfl) (by simp)
  | reclaimCursor consumer => exact .quiet h rfl rfl (hnothing rfl) (by simp)
  | setReclaimCursor consumer cursor =>
    exact .quiet ⟨h.stream, h.ordered, h.bounded, h.entries⟩ rfl rfl (hnothing rfl) (by simp)
  | clearReclaimCursors =>
    exact .quiet ⟨h.stream, h.ordered, h.bounded, h.entries⟩ rfl rfl (hnothing rfl) (by simp)
  | xgroupCreate =>
    rw [answer]
    split
    · rename_i stream hcreate
      have hinv := h.stream.create hcreate
      rw [Stream.create, Option.ite_none_left_eq_some, Option.some.injEq] at hcreate
      obtain ⟨-, rfl⟩ := hcreate
      exact .quiet (h.regrouped hinv rfl rfl) rfl rfl (hnothing rfl) (by simp)
    · exact .quiet h rfl rfl (hnothing rfl) (by simp)
  | xadd fields => exact .added_new h (hnew fields rfl) fields
  | xreadgroup consumer count block =>
    rw [answer]
    split
    · rename_i entries stream hread
      have hinv := h.stream.read hread
      obtain ⟨g, hg, heq⟩ := Option.map_eq_some_iff.1 hread
      rw [Prod.mk.injEq] at heq
      obtain ⟨rfl, rfl⟩ := heq
      exact .quiet (h.regrouped hinv rfl rfl) rfl rfl
        (handed_map fun e he => (Stream.mem_unread he).1) (by simp)
    · exact .quiet h rfl rfl (hnothing rfl) (by simp)
  | settle entryId =>
    rw [answer]
    split
    · rename_i id hid
      exact .settled (h.settle id) rfl rfl hid rfl (by simp)
    · exact .quiet h rfl rfl (hnothing rfl) (by simp)
  | settlePoison poison =>
    rw [answer]
    split
    · rename_i id hid
      have hinv := h.settle id
      exact .settled ⟨hinv.stream, hinv.ordered, hinv.bounded, hinv.entries⟩ rfl rfl hid rfl
        (by simp)
    · exact .quiet ⟨h.stream, h.ordered, h.bounded, h.entries⟩ rfl rfl (hnothing rfl) (by simp)
  | xpendingRange startId endId count idle =>
    rw [answer]
    split <;> exact .quiet h rfl rfl (hnothing rfl) (by simp)
  | xautoclaim consumer minIdle startId count =>
    rw [answer]
    split
    · exact .quiet h rfl rfl (hnothing rfl) (by simp)
    · split
      · rename_i next claimed stream hclaim
        have hinv := h.stream.claim hclaim
        have hmem := fun e he => Stream.mem_entries_of_claim (e := e) hclaim he
        obtain ⟨g, hg, heq⟩ := Option.map_eq_some_iff.1 hclaim
        rw [Prod.mk.injEq] at heq
        obtain ⟨-, rfl⟩ := heq
        exact .quiet (h.regrouped hinv rfl rfl) rfl rfl (handed_map hmem) (by simp)
      · exact .quiet h rfl rfl (hnothing rfl) (by simp)

/-- What is lost on the way back has been done all the same. -/
theorem Does.lost {error : QueueRaised} (h : Does ids r op a r') :
    Does ids r op (.error error) r' where
  inv := h.inv
  added := h.added
  handed entry hentry := by
    have hnone : handedBy (⟨op, .error error⟩ : Answered _ _ _) = [] := by cases op <;> rfl
    rw [hnone] at hentry
    cases hentry
  published fields entryId heq := by
    cases op <;> cases heq
  kept := h.kept
  gone := h.gone

/-- **An entry goes only if it is settled**, however the operation ends. -/
theorem Serves.does {args : ℕ × QueueCall} (h : r.Inv) (hserves : Serves ids args op r a r') :
    Does ids r op a r' := by
  cases hserves with
  | answered hnew => exact does_answer h hnew
  | lost _ hnew _ => exact (does_answer h hnew).lost
  | @failed error _ _ =>
    refine ⟨h, List.Subset.refl _, ?_, ?_, fun e he => ?_, fun _ _ hnot => hnot⟩
    · intro entry hentry
      have hnone : handedBy (⟨op, .error error⟩ : Answered _ _ _) = [] := by cases op <;> rfl
      rw [hnone] at hentry
      cases hentry
    · intro fields entryId heq
      cases op <;> cases heq
    · by_cases hmem : e ∈ r.stream.entries
      · exact .inl hmem
      · exact .inr (.inl ⟨he, hmem⟩)

/-- What happens without the queues settles nothing. -/
theorem Moves.does (h : r.Inv) (hmoves : Moves r r') : r'.Inv ∧ r.added ⊆ r'.added ∧
    (∀ e ∈ r'.added, e ∈ r'.stream.entries ∨ (e ∈ r.added ∧ e ∉ r.stream.entries)) ∧
    ∀ e ∈ r.added, e ∉ r.stream.entries → e ∉ r'.stream.entries := by
  have hsame : ∀ e ∈ r.added, e ∈ r.stream.entries ∨ (e ∈ r.added ∧ e ∉ r.stream.entries) := by
    intro e he
    by_cases hmem : e ∈ r.stream.entries
    · exact .inl hmem
    · exact .inr ⟨he, hmem⟩
  cases hmoves with
  | tick =>
    exact ⟨⟨h.stream, h.ordered, h.bounded, h.entries⟩, List.Subset.refl _, hsame,
      fun _ _ hnot => hnot⟩
  | destroyed =>
    exact ⟨h.regrouped h.stream.destroy rfl rfl, List.Subset.refl _, hsame, fun _ _ hnot => hnot⟩
  | @added id fields hid =>
    refine ⟨h.add hid fields, List.subset_append_left _ _, fun e he => ?_, fun e he hnot hmem => ?_⟩
    · rcases List.mem_append.1 he with he | he
      · exact (hsame e he).imp_left (List.mem_append_left _)
      · exact .inl (List.mem_append_right _ he)
    · exact h.not_mem_add hid he hnot hmem

end

end RedisServer

end AegisPlatform
