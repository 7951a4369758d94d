import AegisPlatform.Lib.Interference
import AegisPlatform.System.Streams

/-!
# Reclaiming what is idle

A consumer that has died leaves its entries pending; `reclaim` takes them over, a part of the list
at a time, from where it has come to.

* `Others` — what the other calls do, as long as they leave the cursor and the entry alone.
* `Before` — the entry is idle, and the cursor has not come past it.
* `Before.reclaim` — one call gives the entry out, or comes closer to it.
* `idle_reclaimed` — from the beginning of the list to its end, it is given out.
-/

namespace AegisPlatform

open Fallible Streams Effects

namespace RedisServer

section

variable {ids : IdReader} {args : ℕ × QueueCall} {op : QueueOp} {r r' : RedisServer}
  {a : Except QueueRaised op.Reply}

/-- What was answered, where something was. -/
theorem Serves.ok {x : op.Reply} (h : Serves ids args op r a r') (ha : a = .ok x) :
    ∃ newId, answer ids args.1 newId r op = (.ok x, r') := by
  cases h with
  | @answered newId _ => exact ⟨newId, Prod.ext ha rfl⟩
  | lost => cases ha
  | failed => cases ha

theorem clock_answer (queue : ℕ) (newId : StreamId) (r : RedisServer) (op : QueueOp) :
    (answer ids queue newId r op).2.clock = r.clock := by
  cases op <;> simp only [answer, setQueue, add] <;> (repeat' split) <;> rfl

theorem Serves.clock (h : Serves ids args op r a r') : r'.clock = r.clock := by
  cases h with
  | answered => exact clock_answer ..
  | lost => exact clock_answer ..
  | failed => rfl

theorem Moves.clock (h : Moves r r') : r.clock ≤ r'.clock := by
  cases h with
  | tick hle => exact hle
  | destroyed => exact le_rfl
  | added => exact le_rfl

end

end RedisServer

namespace RedisStreamQueue

open RedisServer

section

variable (e : StreamId × StreamFields) (p : Streams.Pending StreamId String)

/-- The entry is in the stream, and pending as it was. -/
structure Untouched (r : RedisServer) : Prop where
  entry : e ∈ r.stream.entries
  pending : ∃ g, r.stream.group = some g ∧ p ∈ g.pending

variable (ids : IdReader) (queue : ℕ) (consumer : String)

/-- The cursor of the consumer is left alone, and so is the entry. -/
structure Leaves (r r' : RedisServer) : Prop where
  cursor : (r'.queues queue).reclaimCursor consumer = (r.queues queue).reclaimCursor consumer
  untouched : Untouched e p r → Untouched e p r'

/-- What others do that leave alone the cursor of a consumer, and an entry that nobody has taken
over yet. -/
inductive Others : RedisServer → RedisServer → Prop
  | refl (r : RedisServer) : Others r r
  | serve {r t u : RedisServer} {args : ℕ × QueueCall} {op : QueueOp}
      {a : Except QueueRaised op.Reply} : Others r t → Serves ids args op t a u →
      Leaves e p queue consumer t u → Others r u
  | move {r t u : RedisServer} : Others r t → RedisServer.Moves t u →
      Leaves e p queue consumer t u → Others r u

/-- The entry is idle, and the cursor has not come past it. -/
structure Before (minIdle : ℤ) (cursor : StreamId) (r : RedisServer) : Prop where
  inv : r.Inv
  untouched : Untouched e p r
  idle : minIdle ≤ r.clock - p.deliveredAt
  stored : (r.queues queue).reclaimCursor consumer = cursor.text
  le : cursor ≤ e.1

variable {e p ids queue consumer} {minIdle : ℤ} {cursor : StreamId} {r r' : RedisServer}

theorem Before.others (h : Before e p queue consumer minIdle cursor r)
    (hothers : Others e p ids queue consumer r r') :
    Before e p queue consumer minIdle cursor r' := by
  induction hothers with
  | refl => exact h
  | serve _ hserves hleaves ih =>
    exact ⟨(hserves.does ih.inv).inv, hleaves.untouched ih.untouched,
      by rw [hserves.clock]; exact ih.idle, hleaves.cursor.trans ih.stored, ih.le⟩
  | move _ hmoves hleaves ih =>
    exact ⟨(hmoves.does ih.inv).1, hleaves.untouched ih.untouched,
      ih.idle.trans (Int.sub_le_sub_right hmoves.clock _), hleaves.cursor.trans ih.stored, ih.le⟩

/-- An operation that changes neither the stream nor the cursors, if there is a group. -/
def isQuiet : QueueOp → Bool
  | .groupReady | .setGroupReady _ | .reclaimCursor _ | .xgroupCreate | .xpendingRange .. => true
  | _ => false

theorem quiet_answer (ids : IdReader) {op : QueueOp} (hquiet : isQuiet op = true)
    (hgroup : r.stream.group.isSome) (newId : StreamId) :
    (answer ids queue newId r op).2 = r ∨ ∃ ready,
      (answer ids queue newId r op).2 =
        r.setQueue queue { r.queues queue with groupReady := ready } := by
  cases op with
  | groupReady => exact .inl rfl
  | setGroupReady ready => exact .inr ⟨ready, rfl⟩
  | reclaimCursor consumer => exact .inl rfl
  | xgroupCreate =>
    have hcreate : r.stream.create ⊥ = none := by rw [Stream.create, if_pos hgroup]
    rw [answer, hcreate]
    exact .inl rfl
  | xpendingRange startId endId count idle =>
    rw [answer]
    split <;> exact .inl rfl
  | _ => cases hquiet

theorem Before.setReady (h : Before e p queue consumer minIdle cursor r) (ready : Bool) :
    Before e p queue consumer minIdle cursor
      (r.setQueue queue { r.queues queue with groupReady := ready }) where
  inv := ⟨h.inv.stream, h.inv.ordered, h.inv.bounded, h.inv.entries⟩
  untouched := ⟨h.untouched.entry, h.untouched.pending⟩
  idle := h.idle
  stored := by
    rw [setQueue]
    simpa using h.stored
  le := h.le

theorem Before.quiet (h : Before e p queue consumer minIdle cursor r) {call : QueueCall}
    {op : QueueOp} (hquiet : isQuiet op = true) {a : Except QueueRaised op.Reply}
    (hserves : Serves ids (queue, call) op r a r') :
    Before e p queue consumer minIdle cursor r' := by
  obtain ⟨g, hg, -⟩ := h.untouched.pending
  have hgroup : r.stream.group.isSome := by rw [hg]; rfl
  have hanswer : ∀ newId, Before e p queue consumer minIdle cursor
      (answer ids queue newId r op).2 := by
    intro newId
    rcases quiet_answer ids hquiet hgroup newId with heq | ⟨ready, heq⟩
    · rw [heq]
      exact h
    · rw [heq]
      exact h.setReady ready
  cases hserves with
  | answered => exact hanswer _
  | lost => exact hanswer _
  | failed => exact h

/-- Another entry is quarantined. -/
theorem Before.settlePoison (h : Before e p queue consumer minIdle cursor r) (hid : p.id = e.1)
    {call : QueueCall} {id : StreamId} (hne : id ≠ e.1) {reasonCode : String}
    (hserves : Serves ids (queue, call) (.settlePoison ⟨id.text, reasonCode⟩) r (.ok ()) r') :
    Before e p queue consumer minIdle cursor r' := by
  obtain ⟨newId, hanswer⟩ := hserves.ok rfl
  have hinv := (hserves.does h.inv).inv
  rw [answer, ids.read_text, Prod.mk.injEq] at hanswer
  obtain ⟨-, rfl⟩ := hanswer
  obtain ⟨g, hg, hp⟩ := h.untouched.pending
  refine ⟨hinv, ⟨?_, { g with pending := g.pending.filter (·.id ≠ id) }, ?_, ?_⟩, h.idle, h.stored,
    h.le⟩
  · exact List.mem_filter.2 ⟨h.untouched.entry, by simpa using hne.symm⟩
  · simp only [Stream.settle, hg]
    rfl
  · exact List.mem_filter.2 ⟨hp, by simpa [hid] using hne.symm⟩

/-! ## A call -/

variable {conv : Conversions} {call : QueueCall} {v : RedisServer}

/-- A run of a program for one queue, among the others. -/
abbrev Run {α : Type} (ids : IdReader) (e : StreamId × StreamFields)
    (p : Streams.Pending StreamId String) (queue : ℕ) (consumer : String) (call : QueueCall) :
    QueueProg α → RedisServer → Except QueueRaised α → RedisServer → Prop :=
  RunsAmong (Serves ids (queue, call)) (Others e p ids queue consumer)

/-- A command that returns was answered. -/
theorem command_ok {op : QueueOp} {a : op.Reply}
    (h : Run ids e p queue consumer call (command op) r (.ok a) v) :
    ∃ t, Others e p ids queue consumer r t ∧ Serves ids (queue, call) op t (.ok a) v := by
  rcases h.handle_ok with hok | ⟨error, t, -, hthrow⟩
  · exact hok.ask
  · cases error with
    | redis error =>
      obtain ⟨_, _, -, hlast⟩ := hthrow.bind_ok
      cases hlast
    | _ => cases hthrow

theorem Before.ensureGroup (h : Before e p queue consumer minIdle cursor r)
    (hrun : Run ids e p queue consumer call ensureGroup r (.ok ()) v) :
    Before e p queue consumer minIdle cursor v := by
  obtain ⟨ready, r₁, hready, hrun⟩ := hrun.bind_ok
  obtain ⟨t, hothers, hserves⟩ := hready.ask
  have h₁ := (h.others hothers).quiet rfl hserves
  cases ready with
  | true =>
    obtain ⟨-, rfl⟩ := hrun.pure_ok
    exact h₁
  | false =>
    obtain ⟨_, r₂, hcreate, hset⟩ := hrun.bind_ok
    have h₂ : Before e p queue consumer minIdle cursor r₂ := by
      rcases hcreate.handle_ok with hok | ⟨error, t, hask, hhandled⟩
      · obtain ⟨t, hothers, hserves⟩ := hok.ask
        exact (h₁.others hothers).quiet rfl hserves
      · obtain ⟨u, hothers, hserves⟩ := hask.ask
        have hbefore := (h₁.others hothers).quiet rfl hserves
        split at hhandled
        · obtain ⟨-, rfl⟩ := hhandled.pure_ok
          exact hbefore
        · cases hhandled
        · cases hhandled
    obtain ⟨t, hothers, hserves⟩ := hset.ask
    exact (h₂.others hothers).quiet rfl hserves

theorem Before.pending (h : Before e p queue consumer minIdle cursor r) {count idle : ℤ}
    {startId endId : String} {metadata : List PendingEntry}
    (hrun : Run ids e p queue consumer call (pending count idle startId endId) r (.ok metadata) v) :
    Before e p queue consumer minIdle cursor v := by
  unfold RedisStreamQueue.pending at hrun
  obtain ⟨_, r₁, hensure, hrun₁⟩ := hrun.bind_ok
  have h₁ := h.ensureGroup hensure
  obtain ⟨_, r₂, hcheck, hrun₂⟩ := hrun₁.bind_ok
  obtain ⟨-, rfl⟩ := hcheck.ofExcept_ok
  obtain ⟨t, hothers, hserves⟩ := command_ok hrun₂
  exact (h₁.others hothers).quiet rfl hserves

/-- The decoding of other entries. -/
theorem Before.decodeEntries (h : Before e p queue consumer minIdle cursor r) (hid : p.id = e.1)
    {metadata : StreamEntry → ℤ × ℤ} {claimed : List (StreamId × StreamFields)}
    (hne : ∀ e' ∈ claimed, e'.1 ≠ e.1) {deliveries : List StreamDelivery}
    (hrun : Run ids e p queue consumer call
      (decodeEntries conv metadata (claimed.map entryOf)) r (.ok deliveries) v) :
    Before e p queue consumer minIdle cursor v := by
  induction claimed generalizing r deliveries with
  | nil =>
    obtain ⟨-, rfl⟩ := hrun.pure_ok
    exact h
  | cons e' claimed ih =>
    rw [List.map_cons, RedisStreamQueue.decodeEntries] at hrun
    obtain ⟨delivery?, r₁, hentry, hrun⟩ := hrun.bind_ok
    have h₁ : Before e p queue consumer minIdle cursor r₁ := by
      unfold decodeEntry at hentry
      split at hentry
      · obtain ⟨_, r₂, hdelivery, hpure⟩ := hentry.bind_ok
        obtain ⟨-, rfl⟩ := hdelivery.ofExcept_ok
        obtain ⟨-, rfl⟩ := hpure.pure_ok
        exact h
      · obtain ⟨_, r₂, hpoison, hpure⟩ := hentry.bind_ok
        obtain ⟨-, rfl⟩ := hpure.pure_ok
        obtain ⟨t, hothers, hserves⟩ := command_ok hpoison
        exact (h.others hothers).settlePoison hid (hne e' List.mem_cons_self) hserves
      · cases hentry
    obtain ⟨rest, r₂, hrest, hpure⟩ := hrun.bind_ok
    obtain ⟨-, rfl⟩ := hpure.pure_ok
    exact ih h₁ (fun e'' he'' => hne e'' (List.mem_cons_of_mem _ he'')) hrest

/-- What a call of `reclaim` gives out is decoded in full. -/
theorem delivered_of_claimed (F : Json.FloatText) {claimed : List (StreamId × StreamFields)}
    {deliveries : List StreamDelivery}
    {metadata : StreamEntry → ℤ × ℤ} {envelope : MessageEnvelope} (he : e ∈ claimed)
    (hdecodes : decodeFields conv e.2 = .ok envelope)
    (hrun : Run ids e p queue consumer call
      (RedisStreamQueue.decodeEntries conv metadata (claimed.map entryOf)) r (.ok deliveries) v) :
    ∃ delivery ∈ deliveries, delivery.streamEntryId = e.1.text ∧ delivery.envelope = envelope := by
  let before : QueueHistory := [⟨.xautoclaim "" 0 "" 0, .ok ("", claimed.map entryOf)⟩]
  have hhanded : ∀ entry ∈ claimed.map entryOf, Handed before entry := fun entry hentry =>
    ⟨_, List.mem_singleton_self _, hentry⟩
  have hfollows : (RedisStreamQueue.decodeEntries conv metadata (claimed.map entryOf)).Follows
      (Justified F conv call) before fun deliveries h' =>
        Decoded conv (claimed.map entryOf) deliveries h' := follows_decodeEntries hhanded
  obtain ⟨h', hend⟩ := hrun.wp hfollows
  have hdecoded := hend deliveries rfl
  rcases hdecoded.complete (entryOf e) (List.mem_map_of_mem he) with
    ⟨delivery, hdelivery, hid, hmatches⟩ | ⟨⟨message, hpoison⟩, -⟩
  · have hequal := hmatches.symm.trans hdecodes
    rw [Except.ok.injEq] at hequal
    exact ⟨delivery, hdelivery, hid, hequal⟩
  · exact absurd (hpoison.symm.trans hdecodes) (by simp)

/-- What a claim that returns has done. -/
theorem xautoclaim_ok {minIdle : ℤ} {start : StreamId} {count : ℤ}
    {result : String × List StreamEntry}
    (hserves : Serves ids (queue, call) (.xautoclaim consumer minIdle start.text count) r
      (.ok result) r') :
    ∃ next claimed stream,
      r.stream.claim consumer minIdle r.clock start count.toNat = some ((next, claimed), stream) ∧
      result = ((next.getD ⊥).text, claimed.map entryOf) ∧ r' = { r with stream := stream } := by
  obtain ⟨newId, hanswer⟩ := hserves.ok rfl
  simp only [answer, ids.read_text] at hanswer
  split at hanswer
  · rename_i next claimed stream hclaimed
    rw [Prod.mk.injEq, Except.ok.injEq] at hanswer
    exact ⟨next, claimed, stream, hclaimed, hanswer.1.symm, hanswer.2.symm⟩
  · cases hanswer

section

variable {claimed : List (StreamId × StreamFields)} {next : Option StreamId} {count : ℕ}
  {stream : Streams.Stream StreamId String StreamFields}

/-- A claim that passes over the entry has not come to it yet, and goes on. -/
theorem Before.unclaimed (h : Before e p queue consumer minIdle cursor r) (hid : p.id = e.1)
    (hclaimed : r.stream.claim consumer minIdle r.clock cursor (count + 1) =
      some ((next, claimed), stream)) (hnot : e ∉ claimed) :
    ∃ c, next = some c ∧ cursor < c ∧ c ≤ e.1 := by
  obtain ⟨g, hg, hp⟩ := h.untouched.pending
  have hentry : (p.id, e.2) ∈ r.stream.entries := by
    rw [hid]
    exact h.untouched.entry
  have hidle : r.stream.Idle p.id minIdle r.clock := ⟨g, p, hg, hp, rfl, h.idle⟩
  have hle : cursor ≤ p.id := by
    rw [hid]
    exact h.le
  have hmine : (p.id, e.2) ∉ claimed := by
    rw [hid]
    exact hnot
  obtain ⟨c, rfl, hc⟩ :=
    (h.inv.stream.claim_covers hentry hidle hle hclaimed).resolve_left hmine
  exact ⟨c, rfl, h.inv.stream.lt_next hclaimed, hid ▸ hc⟩

/-- It leaves the entry as it was. -/
theorem Before.claim (h : Before e p queue consumer minIdle cursor r) (hid : p.id = e.1)
    {start : StreamId} (hclaimed : r.stream.claim consumer minIdle r.clock start count =
      some ((next, claimed), stream)) (hnot : e ∉ claimed)
    (hinv : ({ r with stream := stream } : RedisServer).Inv) :
    Before e p queue consumer minIdle cursor { r with stream := stream } := by
  obtain ⟨g, hg, hp⟩ := h.untouched.pending
  have hentry : (p.id, e.2) ∈ r.stream.entries := by
    rw [hid]
    exact h.untouched.entry
  have hmine : (p.id, e.2) ∉ claimed := by
    rw [hid]
    exact hnot
  have hpending := h.inv.stream.mem_pending_claim hg hp hentry hclaimed hmine
  have hentries : stream.entries = r.stream.entries := by
    obtain ⟨g', -, heq⟩ := Option.map_eq_some_iff.1 hclaimed
    rw [Prod.mk.injEq] at heq
    rw [← heq.2]
  exact ⟨hinv, ⟨hentries ▸ h.untouched.entry, hpending⟩, h.idle, h.stored, h.le⟩

end

/-- The cursor goes on. -/
theorem Before.setCursor (h : Before e p queue consumer minIdle cursor r) {c : StreamId}
    (hc : c ≤ e.1) (hserves : Serves ids (queue, call) (.setReclaimCursor consumer c.text) r
      (.ok ()) r') :
    Before e p queue consumer minIdle c r' := by
  obtain ⟨newId, hanswer⟩ := hserves.ok rfl
  rw [answer, Prod.mk.injEq] at hanswer
  obtain ⟨-, rfl⟩ := hanswer
  refine ⟨⟨h.inv.stream, h.inv.ordered, h.inv.bounded, h.inv.entries⟩,
    ⟨h.untouched.entry, h.untouched.pending⟩, h.idle, ?_, hc⟩
  rw [setQueue]
  simp

/-- **A call gives the entry out, or comes closer to it.** -/
theorem Before.reclaim (F : Json.FloatText) (h : Before e p queue consumer minIdle cursor r)
    (hid : p.id = e.1) {envelope : MessageEnvelope}
    (hdecodes : decodeFields conv e.2 = .ok envelope) {count : ℤ}
    {deliveries : List StreamDelivery}
    (hrun : Run ids e p queue consumer call
      (RedisStreamQueue.reclaim conv consumer minIdle count) r (.ok deliveries) v) :
    (∃ delivery ∈ deliveries, delivery.streamEntryId = e.1.text ∧ delivery.envelope = envelope) ∨
      ∃ next, cursor < next ∧ Before e p queue consumer minIdle next v := by
  unfold RedisStreamQueue.reclaim at hrun
  obtain ⟨_, r₁, hensure, hrun₁⟩ := hrun.bind_ok
  have h₁ := h.ensureGroup hensure
  obtain ⟨_, r₂, hcheck, hrun₂⟩ := hrun₁.bind_ok
  obtain ⟨hvalid, rfl⟩ := hcheck.ofExcept_ok
  obtain ⟨count', hcount⟩ : ∃ n : ℕ, count.toNat = n + 1 := by
    rw [raiseIf_eq_ok] at hvalid
    exact ⟨count.toNat - 1, by omega⟩
  -- the cursor is read
  obtain ⟨startId, r₃, hcursor, hrun₃⟩ := hrun₂.bind_ok
  obtain ⟨t₁, hothers, hserves⟩ := hcursor.ask
  have h₂ := h₁.others hothers
  obtain ⟨newId, hanswer⟩ := hserves.ok rfl
  rw [answer, h₂.stored, Prod.mk.injEq, Except.ok.injEq] at hanswer
  obtain ⟨rfl, rfl⟩ := hanswer
  -- entries are claimed
  obtain ⟨result, r₄, hclaim, hrun₄⟩ := hrun₃.bind_ok
  obtain ⟨t₂, hothers, hserves⟩ := command_ok hclaim
  have h₃ := h₂.others hothers
  have hinv := (hserves.does h₃.inv).inv
  obtain ⟨next, claimed, stream, hclaimed, rfl, rfl⟩ := xautoclaim_ok hserves
  by_cases hmine : e ∈ claimed
  · left
    obtain ⟨_, r₅, -, hrun₅⟩ := hrun₄.bind_ok
    have hnonempty : (claimed.map entryOf).isEmpty = false := by
      cases claimed with
      | nil => cases hmine
      | cons e' claimed => rfl
    simp only [hnonempty, Bool.false_eq_true, if_false] at hrun₅
    obtain ⟨metadata, r₆, -, hrun₆⟩ := hrun₅.bind_ok
    exact delivered_of_claimed F hmine hdecodes hrun₆
  · right
    obtain ⟨c, rfl, hlt, hle⟩ := h₃.unclaimed hid (hcount ▸ hclaimed) hmine
    have h₄ := h₃.claim hid hclaimed hmine hinv
    -- the cursor goes on
    obtain ⟨_, r₅, hset, hrun₅⟩ := hrun₄.bind_ok
    obtain ⟨t₃, hothers, hserves⟩ := hset.ask
    have h₅ := (h₄.others hothers).setCursor hle hserves
    refine ⟨c, hlt, ?_⟩
    split at hrun₅
    · obtain ⟨-, rfl⟩ := hrun₅.pure_ok
      exact h₅
    · obtain ⟨metadata, r₆, hpending, hrun₆⟩ := hrun₅.bind_ok
      refine (h₅.pending hpending).decodeEntries hid (fun e' he' heq => hmine ?_) hrun₆
      have hmem : e' ∈ t₂.stream.entries := Stream.mem_entries_of_claim hclaimed he'
      rw [← h₃.inv.stream.unique hmem h₃.untouched.entry heq]
      exact he'

end

/-! ## Sweeps -/

/-- Calls of `reclaim` that return, one after another, and what they return. -/
inductive Sweep (conv : Conversions) (ids : IdReader) (e : StreamId × StreamFields)
    (p : Streams.Pending StreamId String) (queue : ℕ) (consumer : String) (minIdle count : ℤ) :
    RedisServer → List (List StreamDelivery) → RedisServer → Prop
  | start (r : RedisServer) : Sweep conv ids e p queue consumer minIdle count r [] r
  | round {r t u v : RedisServer} {deliveries : List StreamDelivery}
      {rest : List (List StreamDelivery)} : Others e p ids queue consumer r t →
      Run ids e p queue consumer (.reclaim consumer minIdle count)
        (reclaim conv consumer minIdle count) t (.ok deliveries) u →
      Sweep conv ids e p queue consumer minIdle count u rest v →
      Sweep conv ids e p queue consumer minIdle count r (deliveries :: rest) v

section

variable {e : StreamId × StreamFields} {p : Streams.Pending StreamId String} {ids : IdReader}
  {queue : ℕ} {consumer : String} {minIdle count : ℤ} {cursor : StreamId} {r v : RedisServer}
  {conv : Conversions} {envelope : MessageEnvelope} {rounds : List (List StreamDelivery)}

/-- A sweep gives the entry out, or has come closer to it with each of its calls. -/
theorem Before.sweep (F : Json.FloatText) (h : Before e p queue consumer minIdle cursor r)
    (hid : p.id = e.1) (hdecodes : decodeFields conv e.2 = .ok envelope)
    (hsweep : Sweep conv ids e p queue consumer minIdle count r rounds v) :
    (∃ deliveries ∈ rounds, ∃ delivery ∈ deliveries,
      delivery.streamEntryId = e.1.text ∧ delivery.envelope = envelope) ∨
      ∃ next, Before e p queue consumer minIdle next v ∧ cursor ≤ next ∧
        (rounds ≠ [] → cursor < next) := by
  induction hsweep generalizing cursor with
  | start => exact .inr ⟨cursor, h, le_rfl, fun hne => absurd rfl hne⟩
  | @round r t u v deliveries rest hothers hrun _ ih =>
    rcases (h.others hothers).reclaim F hid hdecodes hrun with hgiven | ⟨next, hlt, hnext⟩
    · exact .inl ⟨deliveries, List.mem_cons_self, hgiven⟩
    · rcases ih hnext with ⟨deliveries', hmem, hgiven⟩ | ⟨last, hlast, hle, -⟩
      · exact .inl ⟨deliveries', List.mem_cons_of_mem _ hmem, hgiven⟩
      · exact .inr ⟨last, hlast, (hlt.trans_le hle).le, fun _ => hlt.trans_le hle⟩

end

/-! ## A consumer that has died -/

/-- The text of an envelope. -/
def lateRaw : List UInt8 :=
  utf8 (Json.dumps OpenAI.bitsText (envelopeBody plainConversions.toPyText plainEnvelope))

/-- `json.loads(raw)`, where the raw bytes are this text. -/
def lateLoads (raw : List UInt8) : Except PyError JsonValue :=
  if raw = lateRaw then .ok (envelopeBody plainConversions.toPyText plainEnvelope).sortKeys
  else .error .jsonDecodeError

theorem lateLoads_raises (raw : List UInt8) (e : PyError) (h : lateLoads raw = .error e) :
    e = .unicodeDecodeError ∨ e = .jsonDecodeError ∨ e = .valueError ∨ e = .recursionError := by
  unfold lateLoads at h
  split at h
  · cases h
  · cases h
    exact .inr (.inl rfl)

def lateConversions : Conversions :=
  { plainConversions with loads := lateLoads, loads_raises := lateLoads_raises }

def lateEntry : StreamId × StreamFields := (⟨1, 0, one_valid⟩, ⟨some (.bytes lateRaw), none⟩)

/-- A consumer has read the entry. -/
def lateRead : QueueService := served OpenAI.bitsText lateConversions
  ⟨RedisServer.initial.add lateEntry.1 lateEntry.2, []⟩ (.read "dead" 1 0)

/-- A minute has passed. -/
def lateService : QueueService := ⟨{ lateRead.store with clock := 60000 }, lateRead.clients⟩

theorem lateRead_clock : lateRead.store.clock ≤ 60000 := by decide +kernel

theorem lateService_reached :
    Reaches OpenAI.bitsText lateConversions none redisIds lateService := by
  have hadded : Reaches OpenAI.bitsText lateConversions none redisIds
      ⟨RedisServer.initial.add lateEntry.1 lateEntry.2, []⟩ :=
    (Service.Reaches.refl _).tail (.move (.added (by decide)))
  exact (hadded.served (.read "dead" 1 0)).tail (.move (.tick lateRead_clock))

/-- There is one entry, it can be decoded, and it is idle. -/
def isLate (r : RedisServer) : Bool :=
  match r.stream.entries, r.stream.group with
  | [e], some g => (decodeFields lateConversions e.2).toOption.isSome &&
      g.pending.any fun p => decide (p.id = e.1) && decide (1000 ≤ r.clock - p.deliveredAt)
  | _, _ => false

theorem isLate_lateService : isLate lateService.store = true := by decide +kernel

theorem exists_of_isLate {r : RedisServer} (h : isLate r = true) :
    ∃ e ∈ r.stream.entries, ∃ g, r.stream.group = some g ∧ ∃ p ∈ g.pending, p.id = e.1 ∧
      1000 ≤ r.clock - p.deliveredAt ∧
      ∃ envelope, decodeFields lateConversions e.2 = .ok envelope := by
  unfold isLate at h
  split at h
  · rename_i e g hentries hgroup
    rw [Bool.and_eq_true, List.any_eq_true] at h
    obtain ⟨hdecodes, p, hp, hidle⟩ := h
    simp only [Bool.and_eq_true, decide_eq_true_eq] at hidle
    refine ⟨e, ?_, g, hgroup, p, hp, hidle.1, hidle.2, ?_⟩
    · rw [hentries]
      exact List.mem_singleton_self e
    · generalize decodeFields lateConversions e.2 = decoded at hdecodes
      cases decoded with
      | ok envelope => exact ⟨envelope, rfl⟩
      | error error => cases hdecodes
  · cases h

theorem lateService_idle : ∃ e ∈ lateService.store.stream.entries, ∃ g,
    lateService.store.stream.group = some g ∧ ∃ p ∈ g.pending, p.id = e.1 ∧
      1000 ≤ lateService.store.clock - p.deliveredAt ∧
      ∃ envelope, decodeFields lateConversions e.2 = .ok envelope :=
  exists_of_isLate isLate_lateService

/-- A call that is served alone. -/
theorem run_alone {α : Type} {e : StreamId × StreamFields} {p : Streams.Pending StreamId String}
    {queue : ℕ} {consumer : String} {call : QueueCall} {program : QueueProg α}
    {r : RedisServer} {n : ℕ} {a : α}
    (h : Service.returned?
      (Service.runClient answerNext n r ⟨(queue, call), [], program⟩).2.rest = some a) :
    Run redisIds e p queue consumer call program r (.ok a)
      (Service.runClient answerNext n r ⟨(queue, call), [], program⟩).1 :=
  runsAmong_runClient (fun r => .refl r) serves_answerNext n h

/-- The entry is reclaimed by another consumer. -/
def lateReclaim : RedisServer ×
    Client (ℕ × QueueCall) QueueOp QueueOp.Reply QueueRaised (List StreamDelivery) :=
  Service.runClient answerNext 20 lateService.store
    ⟨(0, .reclaim "worker" 1000 1), [], reclaim lateConversions "worker" 1000 1⟩

theorem lateReclaim_returned : (Service.returned? lateReclaim.2.rest).isSome = true := by
  decide +kernel

theorem lateReclaim_cursors : (lateService.store.queues 0).reclaimCursor "worker" = "0-0" ∧
    (lateReclaim.1.queues 0).reclaimCursor "worker" = "0-0" := by
  decide +kernel

end RedisStreamQueue

end AegisPlatform
