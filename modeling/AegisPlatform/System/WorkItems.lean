import AegisPlatform.System.Calls

/-!
# The work items, in every run

Whatever calls clients make, with whatever arguments, and in whatever order
their transactions commit:

* `replay_agrees` — replaying a stream gives the stored status, as long as no
  success and no final failure commits for an item that was never started.
* `work_tables_agree` — the cross-table invariant of the work projection, for
  callers that present leases as they got them.
* `cancellation_wins` — after a cancellation request nothing but the
  cancellation comes of an item.
* `queued_attempts_left` — a queued item has attempts left, as long as no item
  on its last attempt is released or retried.
-/

namespace AegisPlatform

open Interleave

/-! ## A sample item

One item with a single attempt, its delivery and its first lease, for the runs
below. -/

/-- A natural number below `100`, as two digits. -/
def twoDigits (n : ℕ) : String := String.ofList [hexDigit (n / 10 % 10), hexDigit (n % 10)]

mutual

/-- The length of `json.dumps` of a value, for plain text. -/
def jsonLength : JsonValue → ℕ
  | .str s => s.toList.length + 2
  | .int n => (toString n).toList.length
  | .list xs => 2 + (xs.length - 1) + jsonLengths xs
  | .obj fields => 2 + (fields.length - 1) + jsonFieldLengths fields
  | _ => 4

/-- The lengths of the elements of a list. -/
def jsonLengths : List JsonValue → ℕ
  | [] => 0
  | x :: xs => jsonLength x + jsonLengths xs

/-- The lengths of the fields of a mapping. -/
def jsonFieldLengths : List (String × JsonValue) → ℕ
  | [] => 0
  | (k, v) :: rest => k.toList.length + 3 + jsonLength v + jsonFieldLengths rest

end

/-- Python's conversions, on plain text, whole numbers and the whole seconds of
the first hour of the epoch. -/
def sampleText : PyText where
  str
    | .str s => s
    | .int n => toString n
    | _ => "None"
  int text := if text.toList.all Char.isDigit then
      some (text.toList.foldl (fun n c => 10 * n + (c.toNat - 48)) 0) else none
  isoformat t := "1970-01-01T00:" ++ twoDigits (t.toNat / 60000000) ++ ":" ++
    twoDigits (t.toNat / 1000000 % 60) ++ "+00:00"
  fromisoformat text := if text = "1970-01-01T00:00:00+00:00" then some 0 else none
  strDecimal x := toString x.num
  jsonBytes := jsonLength
  jsonDigest _ := "ecda3e9bb44a95974bda4ccdb9b550f9f759f081cdc9cf302d26c2e4ea963587"

/-- The identifiers a `uuid_factory` returns that starts at a number. -/
def sampleIds (first n : ℕ) : UUID := UUID.ofNat (first + n)

/-- The trusted context of the sample tenant. -/
def sampleContext : TenantContext := ⟨"acme", isIdentifier_acme⟩

/-- A request with a single attempt. -/
def sampleRequest : WorkRequest := ⟨{
  workId := UUID.ofNat 1
  tenantId := "acme"
  workKind := "demo"
  idempotencyKey := "demo-1"
  correlationId := UUID.ofNat 2
  requestedAt := 0
  payload := []
  maxAttempts := 1 }, rfl⟩

theorem sampleDelivery_valid : "acme" ≠ "" ∧ "aegis.work" ≠ "" := by decide

/-- The delivery of its outbox message. -/
def sampleDelivery : QueueDelivery := ⟨{
  messageId := UUID.ofNat 4
  tenantId := "acme"
  workId := UUID.ofNat 1
  eventId := some (UUID.ofNat 3)
  destination := "aegis.work"
  correlationId := UUID.ofNat 2
  causationId := none
  occurredAt := 0
  payload := requestPayload sampleText sampleRequest
  headers := workHeaders sampleRequest
  valid := sampleDelivery_valid }⟩

/-- The lease its first claim returns. -/
def sampleLease : WorkLease := ⟨{
  workId := UUID.ofNat 1
  tenantId := "acme"
  token := UUID.ofNat 20
  generation := 1
  owner := "worker"
  attempt := 1
  acquiredAt := 0
  heartbeatAt := 0
  expiresAt := seconds 60 }, rfl⟩

/-- The platform the sample runs start on. -/
def samplePlatform : Platform := Platform.initial ["acme"] ∅ 0

/-- The item is registered, published and claimed. -/
def claimedSchedule : List Scheduled :=
  Scheduled.whole 0 (.register sampleContext sampleRequest (UUID.ofNat 3) (UUID.ofNat 4)) ++
  Scheduled.whole 1 (.claimOutbox sampleContext "publisher" (seconds 60) 0 10 none) ++
  Scheduled.whole 2 (.markPublished sampleContext sampleDelivery 0 (sampleIds 10)) ++
  Scheduled.whole 3 (.claim sampleContext sampleDelivery "worker" 0 (seconds 60) 1 (sampleIds 20))

/-- The claimed item is then started. -/
def startedSchedule : List Scheduled := claimedSchedule ++
  Scheduled.whole 4 (.start sampleContext sampleDelivery sampleLease 0 (sampleIds 30))

section Runs

variable {py : PyText} {tenants : List String} {quotas : Table String QuotaLimits}
  {clock : Timestamp} {s s' : Platform}

/-! ## Replay -/

/-- **Replay agrees with the projection.**  In every run in which every success
and every final failure that commits is of a running item, folding `next_status`
over the stream of an item raises nothing and yields its stored status. -/
theorem replay_agrees
    (hrun : Run postgres (AnyCall py) (CommitsMeet ItemOp.Replayable)
      (Platform.initial tenants quotas clock) s)
    {key : WorkKey} {item : WorkItemRow} (hitem : s.store.db.workItems.lookup key = some item) :
    replay none (s.store.db.stream key) = .ok (some item.status) := by
  have hreplays := run_view (F := ItemView.Replays) (lawfully_anyCall py) (fun _ h => (by cases h))
    (fun hv hop hr hstep => hstep.replays hv hop hr) hrun (World.inv_initial _ _ _)
    follows_initial (fun _ => rfl) key
  unfold ItemView.Replays Database.view Database.viewWith at hreplays
  rw [hitem] at hreplays
  exact hreplays

/-- Does the sample item satisfy the predicate? -/
def sampleItem (p : WorkItemRow → Bool) (s : Platform) : Bool :=
  (s.store.db.workItems.lookup sampleRequest.key).any p

theorem sampleItem_eq_true {p : WorkItemRow → Bool} {s : Platform} (h : sampleItem p s = true) :
    ∃ item, s.store.db.workItems.lookup sampleRequest.key = some item ∧ p item = true :=
  (Option.any_eq_true _ _).1 h

theorem replay_agrees_succeeded : ∃ s item,
    Run postgres (AnyCall sampleText) (CommitsMeet ItemOp.Replayable) samplePlatform s ∧
    s.store.db.workItems.lookup sampleRequest.key = some item ∧ item.status = .succeeded ∧
    replay none (s.store.db.stream sampleRequest.key) = .ok (some item.status) := by
  obtain ⟨s, hrun, hdone⟩ := exists_run_any (s := samplePlatform) sampleText
    (startedSchedule ++ Scheduled.whole 5
      (.succeed sampleContext sampleDelivery sampleLease 0 "result" (sampleIds 40)))
    (sampleItem (·.status = .succeeded)) (commitsMeet_of_test ItemOp.Replayable)
    (by decide +kernel)
  obtain ⟨item, hitem, hstatus⟩ := sampleItem_eq_true hdone
  exact ⟨s, item, hrun, hitem, by simpa using hstatus, replay_agrees hrun hitem⟩

/-- A worker that claims an item and reports its success without starting it
commits, and the stream can no longer be replayed. -/
theorem replay_fails_unstarted : ∃ s item,
    Run postgres (AnyCall sampleText) (fun _ _ => True) samplePlatform s ∧
    s.store.db.workItems.lookup sampleRequest.key = some item ∧
    replay none (s.store.db.stream sampleRequest.key) ≠ .ok (some item.status) := by
  obtain ⟨s, hrun, hbad⟩ := exists_run_any (s := samplePlatform) sampleText
    (claimedSchedule ++ Scheduled.whole 4
      (.succeed sampleContext sampleDelivery sampleLease 0 "result" (sampleIds 40)))
    (fun s => sampleItem (fun _ => true) s &&
      match replay none (s.store.db.stream sampleRequest.key) with
      | .ok _ => false
      | .error _ => true) meets_of_anyTest (by decide +kernel)
  rw [Bool.and_eq_true] at hbad
  obtain ⟨item, hitem, -⟩ := sampleItem_eq_true hbad.1
  refine ⟨s, item, hrun, hitem, fun hok => ?_⟩
  rw [hok] at hbad
  cases hbad.2

/-! ## The cross-table invariant -/

/-- An operation that ends a lease ends the current attempt, where the lease is
known or has run out. -/
theorem ItemStep.isCurrent {now : Timestamp} {op : ItemOp} {v v' : ItemView}
    (h : ItemStep now op v v') (hknown : ∀ e attempt, op = .ending e attempt →
      e.ofExpired = true ∨ ∃ row ∈ v.lease, row.released = none ∧ v.Known row.generation attempt) :
    op.IsCurrent v := by
  cases h with
  | @ending e attempt item _ row _ _ _ _ _ _ _ _ hexp =>
    intro item' hitem'
    cases hitem'
    rcases hknown e attempt rfl with he | ⟨row', hrow', hrel, row'', hrow'', -, hcount⟩
    · exact (hexp he).2
    · cases Option.mem_unique hrow' hrow''
      obtain ⟨item', hitem', heq⟩ := hcount rfl hrel
      cases hitem'
      exact heq.symm
  | _ => trivial

/-- A dead letter counts the attempts of its item, in every run of callers that
present leases as they got them. -/
theorem run_deadAttempts
    (hrun : Run postgres (HonestCall py) (fun _ _ => True)
      (Platform.initial tenants quotas clock) s) (key : WorkKey) :
    (s.store.db.view key).DeadAttempts := by
  refine (run_keeps (I := fun w => ∀ key, (w.db.view key).DeadAttempts) (lawfully_honestCall py)
    (fun w w' hdb hw => hdb ▸ hw) (fun s i t c r hs hI hc _ hexec key => ?_) hrun
    (World.inv_initial _ _ _) follows_initial (fun _ _ h => (by cases h))).2.1 key
  have hkey : ∀ {k : WorkKey} {op : ItemOp}, op.IsCurrent (s.store.db.view k) →
      ItemStep s.store.clock op (s.store.db.view k) (t.db.view k) →
      (∀ k', k' ≠ k → t.db.view k' = s.store.db.view k') → (t.db.view key).DeadAttempts := by
    intro k op hop hstep hframe
    by_cases hk : key = k
    · subst hk
      exact hstep.dead_attempts hop (hI key)
    · rw [hframe key hk]
      exact hI key
  cases World.effect hs hc hexec with
  | quiet hsame => rw [hsame key]; exact hI key
  | unfenced _ hlease _ hstep hframe =>
    exact hkey (hstep.isCurrent fun e attempt hop =>
      Or.inl (WorkMutation.expired_of_unleased hlease hop)) hstep hframe
  | fenced ht _ hlease hmkey hleasekey htoken hgen hP hstep hframe =>
    refine hkey (hstep.isCurrent fun e attempt hop => Or.inr ?_) hstep hframe
    -- the row the worker holds is the lease it presents
    obtain ⟨row, hrow, hholds⟩ := hs.held _ _ ht
    obtain ⟨-, hrowgen, hrel⟩ := WorkLeaseRow.holds_iff.1 hholds
    refine ⟨row, by rw [hmkey]; exact hrow, hrel, ?_⟩
    rw [WorkMutation.attempt_of_lease hlease hop, hrowgen, ← hgen, hmkey, ← hleasekey]
    exact hP trivial
  | model _ _ hstep hframe => exact hkey (show ItemOp.IsCurrent .model _ from trivial) hstep hframe

/-- **The work tables agree**, for callers that present leases as a claim or a
heartbeat returned them: who is leased is held, a cancellation request and a
completion go with the status, a dead letter counts the attempts, and no item
is stored as failed. -/
theorem work_tables_agree
    (hrun : Run postgres (HonestCall py) (fun _ _ => True)
      (Platform.initial tenants quotas clock) s)
    {key : WorkKey} {item : WorkItemRow} (hitem : s.store.db.workItems.lookup key = some item) :
    ((∃ lease, s.store.db.workLeases.lookup key = some lease ∧ lease.released = none) ↔
      item.status = .claimed ∨ item.status = .running) ∧
    (item.cancelRequestedAt ≠ none →
      item.status = .claimed ∨ item.status = .running ∨ item.status = .cancelled) ∧
    (item.status = .cancelled → item.cancelRequestedAt ≠ none) ∧
    (item.completedAt ≠ none ↔
      item.status = .succeeded ∨ item.status = .cancelled ∨ item.status = .deadLetter) ∧
    (item.status = .deadLetter → ∃ dead, s.store.db.deadLetters.lookup key = some dead ∧
      dead.attempts = item.attemptCount) ∧
    item.status ≠ .failed := by
  have hinv := (run_inv (lawfully_honestCall py) hrun (World.inv_initial _ _ _) follows_initial).1
  have hwf := hinv.wf key
  have hdead := run_deadAttempts hrun key item hitem
  have hleased := hwf.leased item hitem
  rw [WorkStatus.isActive_iff] at hleased
  exact ⟨hleased.symm, hwf.cancel_status item hitem, hwf.cancelled_at item hitem,
    hwf.completed_at item hitem, hdead, hwf.not_failed item hitem⟩

theorem work_tables_agree_claimed : ∃ s item,
    Run postgres (HonestCall sampleText) (fun _ _ => True) samplePlatform s ∧
    s.store.db.workItems.lookup sampleRequest.key = some item ∧ item.status = .claimed ∧
    ∃ lease, s.store.db.workLeases.lookup sampleRequest.key = some lease ∧
      lease.released = none := by
  obtain ⟨s, hrun, hclaimed⟩ := exists_run_honest (s := samplePlatform) sampleText claimedSchedule
    (sampleItem (·.status = .claimed)) (by decide) meets_of_anyTest (by decide +kernel)
  obtain ⟨item, hitem, hstatus⟩ := sampleItem_eq_true hclaimed
  have hst : item.status = .claimed := by simpa using hstatus
  exact ⟨s, item, hrun, hitem, hst, (work_tables_agree hrun hitem).1.2 (Or.inl hst)⟩

/-! ## Cancellation -/

/-- **Cancellation wins every race.**  After a cancellation request an item is
not claimed, does not succeed or fail, is not retried, dead-lettered or put back
by a reconciliation, and an item that is cancelled stays so. -/
theorem cancellation_wins
    (hrun : Run postgres (AnyCall py) (fun _ _ => True) (Platform.initial tenants quotas clock) s)
    (key : WorkKey) :
    ((s.store.db.stream key).Pairwise fun earlier later =>
      earlier.eventType = .workCancelRequested → later.eventType ≠ .workClaimed ∧
        later.eventType ≠ .workSucceeded ∧ later.eventType ≠ .workFailed ∧
        later.eventType ≠ .workRetryScheduled ∧ later.eventType ≠ .workDeadLettered ∧
        later.eventType ≠ .workReconciled) ∧
    ∀ s', Run postgres (AnyCall py) (fun _ _ => True) s s' →
      ∀ item, s.store.db.workItems.lookup key = some item → item.status = .cancelled →
        ∃ item', s'.store.db.workItems.lookup key = some item' ∧ item'.status = .cancelled := by
  constructor
  · have hsafe := run_view_at (F := ItemView.CancelSafe) key (lawfully_anyCall py)
      (fun hv hs hstep => hstep.cancelSafe hv hs) hrun (World.inv_initial _ _ _) follows_initial
      ⟨List.Pairwise.nil, fun _ h => (by cases h)⟩
    refine hsafe.after.imp fun hafter hreq => ?_
    have hfollows := hafter hreq
    refine ⟨?_, ?_, ?_, ?_, ?_, ?_⟩ <;> (intro heq; rw [heq] at hfollows; cases hfollows)
  · intro s' hrun' item hitem hstatus
    obtain ⟨hinv, hf⟩ := run_inv (lawfully_anyCall py) hrun (World.inv_initial _ _ _) follows_initial
    refine run_view_at (F := fun v => ∃ item', v.item = some item' ∧ item'.status = .cancelled)
      key (lawfully_anyCall py) ?_ hrun' hinv hf ⟨item, hitem, hstatus⟩
    rintro now op v v' hv ⟨item', hitem', hstatus'⟩ hstep
    exact hstep.cancelled_stays hv hitem' hstatus'

/-- The item is cancelled while a worker holds it; the worker then reports its
success in vain and gives it up. -/
theorem cancellation_wins_held : ∃ s,
    Run postgres (AnyCall sampleText) (fun _ _ => True) samplePlatform s ∧
    sampleItem (·.status = .cancelled) s = true ∧
    ((s.store.db.stream sampleRequest.key).Pairwise fun earlier later =>
      earlier.eventType = .workCancelRequested → later.eventType ≠ .workClaimed ∧
        later.eventType ≠ .workSucceeded ∧ later.eventType ≠ .workFailed ∧
        later.eventType ≠ .workRetryScheduled ∧ later.eventType ≠ .workDeadLettered ∧
        later.eventType ≠ .workReconciled) := by
  obtain ⟨s, hrun, hcancelled⟩ := exists_run_any (s := samplePlatform) sampleText
    (startedSchedule ++
      Scheduled.whole 5 (.requestCancel sampleContext sampleRequest 0 none (sampleIds 40)) ++
      Scheduled.whole 6
        (.succeed sampleContext sampleDelivery sampleLease 0 "result" (sampleIds 50)) ++
      Scheduled.whole 7 (.cancel sampleContext sampleDelivery sampleLease 0 (sampleIds 60)))
    (sampleItem (·.status = .cancelled)) meets_of_anyTest (by decide +kernel)
  exact ⟨s, hrun, hcancelled, (cancellation_wins hrun sampleRequest.key).1⟩

/-! ## Attempts -/

/-- **Queued items have attempts left**, in every run in which every release and
every retry that commits is of an item with attempts left. -/
theorem queued_attempts_left
    (hrun : Run postgres (AnyCall py) (CommitsMeet ItemOp.KeepsAttempts)
      (Platform.initial tenants quotas clock) s)
    {key : WorkKey} {item : WorkItemRow} (hitem : s.store.db.workItems.lookup key = some item)
    (hqueued : item.status.isQueued = true) : item.attemptCount < item.maxAttempts := by
  have hleft := run_view (F := ItemView.AttemptsLeft) (lawfully_anyCall py) (fun _ h => (by cases h))
    (fun hv hop hr hstep => hstep.attempts_lt hv hop hr) hrun (World.inv_initial _ _ _)
    follows_initial (fun _ _ h => (by cases h)) key
  exact hleft item hitem hqueued

theorem queued_attempts_left_published : ∃ s item,
    Run postgres (AnyCall sampleText) (CommitsMeet ItemOp.KeepsAttempts) samplePlatform s ∧
    s.store.db.workItems.lookup sampleRequest.key = some item ∧ item.status.isQueued = true ∧
    item.attemptCount < item.maxAttempts := by
  obtain ⟨s, hrun, hqueued⟩ := exists_run_any (s := samplePlatform) sampleText
    (claimedSchedule.take 27) (sampleItem (·.status.isQueued))
    (commitsMeet_of_test ItemOp.KeepsAttempts) (by decide +kernel)
  obtain ⟨item, hitem, hstatus⟩ := sampleItem_eq_true hqueued
  exact ⟨s, item, hrun, hitem, hstatus, queued_attempts_left hrun hitem hstatus⟩

/-- An item released on its last attempt waits for a claim that will never be
made. -/
theorem queued_without_attempts : ∃ s item,
    Run postgres (AnyCall sampleText) (fun _ _ => True) samplePlatform s ∧
    s.store.db.workItems.lookup sampleRequest.key = some item ∧ item.status.isQueued = true ∧
    ¬ item.attemptCount < item.maxAttempts := by
  obtain ⟨s, hrun, hqueued⟩ := exists_run_any (s := samplePlatform) sampleText
    (claimedSchedule ++
      Scheduled.whole 4 (.release sampleContext sampleLease 0 "shutdown" 0 (sampleIds 30)))
    (sampleItem fun item => item.status.isQueued && !decide (item.attemptCount < item.maxAttempts))
    meets_of_anyTest (by decide +kernel)
  obtain ⟨item, hitem, hstatus⟩ := sampleItem_eq_true hqueued
  rw [Bool.and_eq_true, Bool.not_eq_true', decide_eq_false_iff_not] at hstatus
  exact ⟨s, item, hrun, hitem, hstatus⟩

end Runs

end AegisPlatform
