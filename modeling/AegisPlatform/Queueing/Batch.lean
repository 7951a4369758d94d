import AegisPlatform.Queueing.Publisher

/-!
# A publication batch

`publish_batch` hands every claimed message to the queue and marks what became of it.

* `Surroundings` — what the queue and the leases do while a batch runs.
* `Publisher.publishClaim`, `publishBatch` — the code.
* `Publisher.Complete` — the promise: every claim tried in order, no exception, both counts right.
* `Publisher.complete_iff` — it is kept exactly when no claim whose publish fails has lost its
  lease.
-/

namespace AegisPlatform

open Fallible

/-- What `WorkQueue.publish` raises. -/
inductive QueueError where
  | retryable
  | permanent
  deriving DecidableEq, Repr

namespace Publisher

/-- The calls of a batch. -/
inductive OutboxCall where
  | publish (envelope : MessageEnvelope)
  | markPublished (claim : ClaimedOutboxMessage) (publishedAt : Timestamp)
  | markFailed (claim : ClaimedOutboxMessage) (retryAt : Timestamp) (errorCode : String)
  | markDeadLettered (claim : ClaimedOutboxMessage) (errorCode : String)

/-- A call, and whether it went through. -/
abbrev Answered := OutboxCall × Bool

/-- What a batch meets, by the place of the claim in it: what `publish` raises, if anything,
whether the lease is lost by the time of the mark, and whether a shutdown was asked for. -/
structure Surroundings where
  queue : ℕ → Option QueueError
  lost : ℕ → Bool
  shutdown : ℕ → Bool

/-- What became of a claim: counted as published, passed over, or counted as failed. -/
inductive ClaimOutcome where
  | published
  | skipped
  | failed
  deriving DecidableEq, Repr

structure PublishBatchResult where
  claimed : ℕ
  published : ℕ
  failed : ℕ
  deriving DecidableEq, Repr

section

variable (conv : Conversions) (retryDelay : ℤ → ℤ) (context : TenantContext) (now : Timestamp)

/-- `_mark_failed`, and the mark of the `PermanentQueueError` clause: neither stands in a
handler, so a lost lease raises. -/
def markOrRaise (call : OutboxCall) (lost : Bool) : List Answered × Except Raised ClaimOutcome :=
  ([(call, !lost)], if lost then .error (.concurrencyError 1 0) else .ok .failed)

/-- The body of the loop, for one claim. -/
def publishClaim (claim : ClaimedOutboxMessage) (queue : Option QueueError) (lost : Bool) :
    List Answered × Except Raised ClaimOutcome :=
  match envelope conv context claim now with
  | .error (.permanentQueueError _) =>
    markOrRaise (.markDeadLettered claim "invalid_envelope") lost
  | .error e => ([], .error e)
  | .ok envelope =>
    match queue with
    | none =>
      -- the one mark whose `ConcurrencyError` is caught
      ([(.publish envelope, true), (.markPublished claim now, !lost)],
        .ok (if lost then .skipped else .published))
    | some .retryable =>
      let (calls, outcome) := markOrRaise
        (.markFailed claim (now + retryDelay claim.row.attemptCount) "redis_unavailable") lost
      ((.publish envelope, false) :: calls, outcome)
    | some .permanent =>
      let (calls, outcome) := markOrRaise (.markDeadLettered claim "invalid_envelope") lost
      ((.publish envelope, false) :: calls, outcome)

variable (around : Surroundings)

/-- The loop, from a place on. -/
def publishClaims (place : ℕ) :
    List ClaimedOutboxMessage → ℕ → ℕ → List Answered × Except Raised (ℕ × ℕ)
  | [], published, failed => ([], .ok (published, failed))
  | claim :: rest, published, failed =>
    if around.shutdown place then ([], .ok (published, failed))
    else
      let (calls, outcome) :=
        publishClaim conv retryDelay context now claim (around.queue place) (around.lost place)
      match outcome with
      | .error e => (calls, .error e)
      | .ok outcome =>
        let published := if outcome = .published then published + 1 else published
        let failed := if outcome = .failed then failed + 1 else failed
        let (later, result) := publishClaims (place + 1) rest published failed
        (calls ++ later, result)

/-- `publish_batch`, of the messages claimed: its calls, and what it returns or raises. -/
def publishBatch (claims : List ClaimedOutboxMessage) :
    List Answered × Except Raised PublishBatchResult :=
  let (calls, result) := publishClaims conv retryDelay context now around 0 claims 0 0
  (calls, result.map fun counts => ⟨claims.length, counts.1, counts.2⟩)

/-- `_default_retry_delay`, in microseconds. -/
def defaultRetryDelay (attempt : ℤ) : ℤ := min 300 (2 ^ (min attempt 8).toNat) * 1000000

/-! ## The promise -/

/-- Was the claim's message handed to the queue? -/
def delivers (claim : ClaimedOutboxMessage) (queue : Option QueueError) : Bool :=
  match envelope conv context claim now with
  | .ok _ => queue.isNone
  | .error _ => false

/-- How many claims from a place on were not handed to the queue. -/
def failures (place : ℕ) : List ClaimedOutboxMessage → ℕ
  | [] => 0
  | claim :: rest =>
    (if delivers conv context now claim (around.queue place) then 0 else 1) +
      failures (place + 1) rest

/-- The envelope a call publishes. -/
def OutboxCall.published? : OutboxCall → Option MessageEnvelope
  | .publish envelope => some envelope
  | _ => none

/-- Does the call mark a message as published, and go through? -/
def marksPublished : Answered → Bool
  | (.markPublished .., answer) => answer
  | _ => false

/-- The promise of a batch: every claim that has an envelope is published once, in the order
of the claims; nothing is raised; and the result counts the claims marked published and those
whose publish failed. -/
structure Complete (claims : List ClaimedOutboxMessage) : Prop where
  tried : (publishBatch conv retryDelay context now around claims).1.filterMap (·.1.published?) =
    claims.filterMap fun claim => (envelope conv context claim now).toOption
  returns : (publishBatch conv retryDelay context now around claims).2 = .ok
    ⟨claims.length,
      (publishBatch conv retryDelay context now around claims).1.countP marksPublished,
      failures conv context now around 0 claims⟩

/-- A claimed message as the columns of the outbox hold it: a destination, and JSON numbers
that are finite. -/
structure Stored (claim : ClaimedOutboxMessage) : Prop where
  destination : claim.row.destination ≠ ""
  payload : JsonValue.isFiniteFields claim.row.payload = true
  headers : JsonValue.isFiniteFields claim.row.headers = true

end

variable {conv : Conversions} {context : TenantContext} {now : Timestamp} {around : Surroundings}
  {claim : ClaimedOutboxMessage}

theorem tenantId_ne_empty (context : TenantContext) : context.tenantId ≠ "" := by
  have hvalid := context.valid
  simp only [isIdentifier, Bool.and_eq_true, decide_eq_true_eq] at hvalid
  exact hvalid.1.1

/-- The envelope of a stored message is built, or the message is refused for good. -/
theorem envelope_stored (conv : Conversions) (context : TenantContext) (now : Timestamp)
    (h : Stored claim) :
    (∃ built, envelope conv context claim now = .ok built) ∨
      ∃ message, envelope conv context claim now = .error (.permanentQueueError message) := by
  have hpayload : freezeJsonMapping claim.row.payload = .ok () := if_pos h.payload
  have hheaders : freezeJsonMapping claim.row.headers = .ok () := if_pos h.headers
  have hvalid : context.tenantId ≠ "" ∧ claim.row.destination ≠ "" :=
    ⟨tenantId_ne_empty context, h.destination⟩
  cases hrouting : routing conv claim.row.payload with
  | error e =>
    refine Or.inr ⟨"outbox payload lacks work routing metadata", ?_⟩
    simp only [envelope, hrouting]
    rfl
  | ok ids =>
    by_cases hheader : ((tenantHeader claim.row.headers).any fun value =>
        conv.str value ≠ context.tenantId) = true
    · refine Or.inr ⟨"outbox tenant header mismatch", ?_⟩
      simp only [envelope, hrouting, hheader, raiseIf, if_true]
      rfl
    · have hbuilt : envelope conv context claim now = .ok ⟨claim.messageId, context.tenantId,
          ids.1, claim.row.eventId, claim.row.destination, ids.2.1, ids.2.2, now,
          claim.row.payload, claim.row.headers, hvalid⟩ := by
        simp only [envelope, hrouting, raiseIf, if_neg hheader, hpayload, hheaders,
          dif_pos hvalid]
        rfl
      exact Or.inl ⟨_, hbuilt⟩

/-- **What one claim comes to.**  It raises exactly when its publish fails and its lease is
lost; else it is counted by what was marked. -/
theorem publishClaim_spec (retryDelay : ℤ → ℤ) (h : Stored claim) (queue : Option QueueError)
    (lost : Bool) :
    ∃ calls outcome, publishClaim conv retryDelay context now claim queue lost = (calls, outcome) ∧
      calls.filterMap (·.1.published?) = (envelope conv context claim now).toOption.toList ∧
      if delivers conv context now claim queue then
        calls.countP marksPublished = (if lost then 0 else 1) ∧
          outcome = .ok (if lost then .skipped else .published)
      else
        calls.countP marksPublished = 0 ∧
          outcome = if lost then .error (.concurrencyError 1 0) else .ok .failed := by
  unfold publishClaim delivers
  rcases envelope_stored conv context now h with
    ⟨built, hbuilt⟩ | ⟨message, hrefused⟩
  · rw [hbuilt]
    cases queue with
    | none => cases lost <;> exact ⟨_, _, rfl, rfl, rfl, rfl⟩
    | some error => cases error <;> exact ⟨_, _, rfl, rfl, rfl, rfl⟩
  · rw [hrefused]
    exact ⟨_, _, rfl, rfl, rfl, rfl⟩

/-- No claim from a place on whose publish fails has lost its lease. -/
def Held (conv : Conversions) (context : TenantContext) (now : Timestamp) (around : Surroundings)
    (place : ℕ) (claims : List ClaimedOutboxMessage) : Prop :=
  ∀ i claim, claims[i]? = some claim →
    delivers conv context now claim (around.queue (place + i)) = false →
      around.lost (place + i) = false

theorem held_cons {place : ℕ} {rest : List ClaimedOutboxMessage} :
    Held conv context now around place (claim :: rest) ↔
      (delivers conv context now claim (around.queue place) = false → around.lost place = false) ∧
        Held conv context now around (place + 1) rest := by
  constructor
  · intro h
    refine ⟨h 0 claim rfl, fun i c hi => ?_⟩
    have hnext := h (i + 1) c hi
    rwa [← Nat.add_assoc, Nat.add_right_comm] at hnext
  · rintro ⟨hfirst, hrest⟩ i c hi
    cases i with
    | zero =>
      cases hi
      exact hfirst
    | succ i =>
      have hnext := hrest i c hi
      rwa [Nat.add_right_comm, Nat.add_assoc] at hnext

/-- **The loop, when no lease is lost that has to be marked as failed.** -/
theorem publishClaims_held (retryDelay : ℤ → ℤ) {claims : List ClaimedOutboxMessage}
    (h : ∀ claim ∈ claims, Stored claim) (hshutdown : ∀ place, around.shutdown place = false) {place : ℕ}
    (hheld : Held conv context now around place claims) (published failed : ℕ) :
    ∃ calls, publishClaims conv retryDelay context now around place claims published failed =
        (calls, .ok (published + calls.countP marksPublished,
          failed + failures conv context now around place claims)) ∧
      calls.filterMap (·.1.published?) =
        claims.filterMap fun claim => (envelope conv context claim now).toOption := by
  induction claims generalizing place published failed with
  | nil => exact ⟨[], rfl, rfl⟩
  | cons claim rest ih =>
    obtain ⟨hfirst, hrest⟩ := held_cons.mp hheld
    obtain ⟨calls, outcome, hclaim, htried, hspec⟩ := publishClaim_spec
      retryDelay (h claim List.mem_cons_self) (around.queue place) (around.lost place)
    have hlater := ih (fun c hc => h c (List.mem_cons_of_mem _ hc)) hrest
    have htries : ∀ later : List Answered, later.filterMap (·.1.published?) =
        rest.filterMap (fun claim => (envelope conv context claim now).toOption) →
        (calls ++ later).filterMap (·.1.published?) =
          (claim :: rest).filterMap fun claim => (envelope conv context claim now).toOption := by
      intro later hlater
      rw [List.filterMap_append, htried, hlater, List.filterMap_cons]
      cases (envelope conv context claim now).toOption <;> rfl
    unfold publishClaims
    rw [hshutdown place, hclaim]
    by_cases hdelivers : delivers conv context now claim (around.queue place) = true
    · rw [if_pos hdelivers] at hspec
      obtain ⟨hcount, rfl⟩ := hspec
      cases hlost : around.lost place with
      | true =>
        obtain ⟨later, hloop, hfilter⟩ := hlater published failed
        rw [hlost] at hcount
        refine ⟨calls ++ later, ?_, htries later hfilter⟩
        simp [hloop, failures, hdelivers, hcount]
      | false =>
        obtain ⟨later, hloop, hfilter⟩ := hlater (published + 1) failed
        rw [hlost] at hcount
        refine ⟨calls ++ later, ?_, htries later hfilter⟩
        simp [hloop, failures, hdelivers, hcount]
        omega
    · rw [if_neg hdelivers] at hspec
      obtain ⟨hcount, rfl⟩ := hspec
      obtain ⟨later, hloop, hfilter⟩ := hlater published (failed + 1)
      refine ⟨calls ++ later, ?_, htries later hfilter⟩
      simp [hfirst (by simpa using hdelivers), hloop, failures, hdelivers, hcount]
      omega

/-- **The loop, when one is**: its mark raises, or an earlier one does. -/
theorem publishClaims_not_held (retryDelay : ℤ → ℤ) {claims : List ClaimedOutboxMessage}
    (h : ∀ claim ∈ claims, Stored claim) (hshutdown : ∀ place, around.shutdown place = false)
    {place : ℕ} (hheld : ¬ Held conv context now around place claims) (published failed : ℕ) :
    ∃ calls e, publishClaims conv retryDelay context now around place claims published failed =
      (calls, .error e) := by
  induction claims generalizing place published failed with
  | nil => exact absurd (fun i claim hi => by simp at hi) hheld
  | cons claim rest ih =>
    obtain ⟨calls, outcome, hclaim, -, hspec⟩ := publishClaim_spec
      retryDelay (h claim List.mem_cons_self) (around.queue place) (around.lost place)
    unfold publishClaims
    rw [hshutdown place, hclaim]
    cases outcome with
    | error e => exact ⟨calls, e, rfl⟩
    | ok outcome =>
      -- the claim did not raise, so the one that will is among the others
      have hrest : ¬ Held conv context now around (place + 1) rest := by
        intro hrest
        refine hheld (held_cons.mpr ⟨fun hdelivers => ?_, hrest⟩)
        rw [hdelivers] at hspec
        cases hlost : around.lost place with
        | false => rfl
        | true =>
          rw [hlost] at hspec
          cases hspec.2
      obtain ⟨later, e, hloop⟩ := ih (fun c hc => h c (List.mem_cons_of_mem _ hc)) hrest
        (if outcome = .published then published + 1 else published)
        (if outcome = .failed then failed + 1 else failed)
      exact ⟨calls ++ later, e, by simp [hloop]⟩

/-- **A lost lease does not stop a batch, unless its publish has failed as well.**  For stored
messages and without a shutdown, the promise is kept exactly when no claim whose publish fails
has lost its lease. -/
theorem complete_iff (retryDelay : ℤ → ℤ) {claims : List ClaimedOutboxMessage}
    (h : ∀ claim ∈ claims, Stored claim)
    (hshutdown : ∀ place, around.shutdown place = false) :
    Complete conv retryDelay context now around claims ↔
      ∀ i claim, claims[i]? = some claim →
        delivers conv context now claim (around.queue i) = false → around.lost i = false := by
  have hheld : Held conv context now around 0 claims ↔ ∀ i claim, claims[i]? = some claim →
      delivers conv context now claim (around.queue i) = false → around.lost i = false := by
    simp only [Held, Nat.zero_add]
  rw [← hheld]
  constructor
  · intro hcomplete
    by_contra hnot
    obtain ⟨calls, e, hloop⟩ := publishClaims_not_held retryDelay h hshutdown hnot 0 0
    have hreturns := hcomplete.returns
    simp only [publishBatch, hloop] at hreturns
    cases hreturns
  · intro hheld
    obtain ⟨calls, hloop, htried⟩ := publishClaims_held retryDelay h hshutdown hheld 0 0
    constructor
    · simp only [publishBatch, hloop]
      exact htried
    · simp only [publishBatch, hloop, Nat.zero_add]
      rfl

/-! ## Two messages -/

/-- A message of the tenant `acme` that announces some work. -/
def sampleClaim (n : ℕ) : ClaimedOutboxMessage where
  messageId := UUID.ofNat n
  row := {
    eventId := none
    destination := "aegis.work"
    payload := [("work_id", .str (UUID.ofNat 7).str), ("correlation_id", .str (UUID.ofNat 8).str)]
    headers := [("tenant_id", .str "acme")]
    state := .leased "publisher-1" 30000000
    availableAt := 0
    attemptCount := 1
    maxAttempts := 8
    lastErrorCode := none }
  leaseOwner := "publisher-1"
  leaseExpiresAt := 30000000

def sampleContext : TenantContext := ⟨"acme", isIdentifier_acme⟩

/-- The queue answers the first message with an error, if any is given; one of the two leases
is lost. -/
def sampleAround (first : Option QueueError) (lost : ℕ) : Surroundings where
  queue place := if place = 0 then first else none
  lost place := place = lost
  shutdown _ := false

theorem stored_sampleClaim (n : ℕ) : Stored (sampleClaim n) := ⟨by simp [sampleClaim], rfl, rfl⟩

/-- The lease of the message that is published is lost: it is passed over. -/
theorem complete_iff_lost_lease :
    Complete plainConversions defaultRetryDelay sampleContext 0 (sampleAround (some .retryable) 1)
      [sampleClaim 1, sampleClaim 2] := by
  have hfirst : delivers plainConversions sampleContext 0 (sampleClaim 2) none = true := by
    decide +kernel
  refine (complete_iff defaultRetryDelay ?_ fun _ => rfl).mpr ?_
  · intro claim hclaim
    simp only [List.mem_cons, List.not_mem_nil, or_false] at hclaim
    rcases hclaim with rfl | rfl <;> exact stored_sampleClaim _
  · intro i claim hi hdelivers
    by_cases hplace : i = 1
    · subst hplace
      cases hi
      rw [show (sampleAround (some .retryable) 1).queue 1 = none from rfl, hfirst] at hdelivers
      cases hdelivers
    · exact decide_eq_false hplace

/-- The queue is unavailable, and the lease of the message it refused is lost: the batch raises,
and the second message is never tried. -/
theorem lost_lease_stops_batch :
    (publishBatch plainConversions defaultRetryDelay sampleContext 0
      (sampleAround (some .retryable) 0) [sampleClaim 1, sampleClaim 2]).2 =
        .error (.concurrencyError 1 0) ∧
    ¬ Complete plainConversions defaultRetryDelay sampleContext 0 (sampleAround (some .retryable) 0)
      [sampleClaim 1, sampleClaim 2] := by
  have hraises : (publishBatch plainConversions defaultRetryDelay sampleContext 0
      (sampleAround (some .retryable) 0) [sampleClaim 1, sampleClaim 2]).2 =
        .error (.concurrencyError 1 0) := by decide +kernel
  refine ⟨hraises, fun hcomplete => ?_⟩
  have hreturns := hcomplete.returns
  rw [hraises] at hreturns
  cases hreturns

end Publisher

end AegisPlatform
