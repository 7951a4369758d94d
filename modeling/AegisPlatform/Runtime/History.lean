import AegisPlatform.Runtime.Item

/-!
# What the stream of an item says

Invariants of the committed events of one work item, of the steps of
`ItemStep`.

* `ItemStep.replays` — replay follows the projection, except where a success or
  a final failure is recorded of an item that was never started
  (`ItemOp.Replayable`).
* `ItemStep.sorted` — lease generations never decrease along a stream.
* `ItemView.Ended`, `ItemStep.ended` — once a generation has ended it stays
  ended, and only later generations are recorded.
* `ItemView.Counted`, `ItemStep.counted` — the attempts of an item are its claims
  since it was registered or last requeued.
* `ItemView.CancelSafe`, `ItemStep.cancelSafe` — after a cancellation request
  the only outcome is the cancellation.
-/

namespace AegisPlatform

open Fallible

variable {now : Timestamp} {op : ItemOp} {v v' : ItemView}

/-! ## Replay -/

/-- Replaying the stream gives the stored status. -/
def ItemView.Replays (v : ItemView) : Prop :=
  replay none v.stream = .ok (v.item.map (·.status))

/-- Does the operation record a success or a final failure? -/
def ItemOp.recordsResult : ItemOp → Bool
  | .ending .succeed _ | .ending .deadLetter _ => true
  | _ => false

/-- A success or a final failure is recorded of a running item only. -/
def ItemOp.Replayable (op : ItemOp) (v : ItemView) : Prop :=
  op.recordsResult = true → ∀ item ∈ v.item, item.status = .running

instance (op : ItemOp) (v : ItemView) : Decidable (op.Replayable v) :=
  inferInstanceAs (Decidable (op.recordsResult = true → ∀ item ∈ v.item, item.status = .running))

/-- To replay a stream that grew, replay the batch from the status before it. -/
theorem ItemView.Replays.append {stream es : List EventEnvelope} {types : List DomainEventType}
    {g : Option ℤ} {status : Option WorkStatus} {status' : WorkStatus}
    (hv : replay none stream = .ok status) (hb : Batch es types g)
    (hnext : replayTypes status types = .ok (some status')) :
    replay none (stream ++ es) = .ok (some status') := by
  rw [replay_append, hv]
  show replay status es = _
  rw [replay, hb.types, hnext]

namespace ItemStep

/-- **Replay follows the projection**, as long as no success and no final
failure is recorded of an item that was claimed and never started. -/
theorem replays (h : ItemStep now op v v') (hv : v.Wf) (hop : op.Replayable v)
    (hr : v.Replays) : v'.Replays := by
  unfold ItemView.Replays at *
  cases h with
  | @register _ _ _ es hs _ _ _ _ hb =>
    have hnext : replay none ([] ++ es) = .ok (some .requested) :=
      ItemView.Replays.append hr hb rfl
    simpa [hs] using hnext
  | publish hs hb =>
    rcases hs with hs | hs <;> exact ItemView.Replays.append hr hb (by rw [Option.map_some, hs]; rfl)
  | @redrive item _ _ _ _ hs hb =>
    refine ItemView.Replays.append hr hb ?_
    rcases WorkStatus.isQueued_iff.1 hs with hs | hs | hs <;> simp only [Option.map_some, hs] <;> rfl
  | claim hs _ _ _ _ hb =>
    rcases hs with hs | hs <;> exact ItemView.Replays.append hr hb (by rw [Option.map_some, hs]; rfl)
  | start _ hs hb => exact ItemView.Replays.append hr hb (by rw [Option.map_some, hs]; rfl)
  | @heartbeat item row _ _ _ _ hrel _ _ _ hb =>
    -- the item of a held lease is claimed or running, and stays so
    cases item with
    | none => exact absurd (hv.unregistered rfl) (by simp)
    | some item =>
      have hactive := (hv.leased item rfl).2 ⟨row, rfl, hrel⟩
      refine ItemView.Replays.append hr hb ?_
      rcases WorkStatus.isActive_iff.1 hactive with hs | hs <;> simp only [Option.map_some, hs] <;> rfl
  | model _ hwork =>
    rw [replay_append, hr]
    exact replay_of_not_isWork hwork
  | @cancelQueued item item' _ _ _ _ hs hs' _ _ _ _ hb =>
    rw [Option.map_some, hs']
    refine ItemView.Replays.append hr hb ?_
    rcases WorkStatus.isQueued_iff.1 hs with hs | hs | hs <;> simp only [Option.map_some, hs] <;> rfl
  | @cancelActive item item' _ _ _ _ hs hs' _ _ _ _ hb =>
    rw [Option.map_some, hs']
    refine ItemView.Replays.append hr hb ?_
    rcases WorkStatus.isActive_iff.1 hs with hs | hs <;> simp only [Option.map_some, hs] <;> rfl
  | requeue hs hs' _ _ _ _ hb =>
    rw [Option.map_some, hs']
    exact ItemView.Replays.append hr hb (by rw [Option.map_some, hs]; rfl)
  | @ending e _ item item' _ _ _ _ _ _ _ hallows _ _ _ hs' _ _ _ _ _ _ hb =>
    rw [Option.map_some, hs']
    refine ItemView.Replays.append hr hb ?_
    rw [Option.map_some]
    -- of the eight endings two are recorded of claimed items without an edge for it
    have hrun : e = .succeed ∨ e = .deadLetter → item.status = .running := by
      rintro (rfl | rfl) <;> exact hop rfl item rfl
    rcases Ending.active_of_allows hallows with hs | hs <;> cases e <;>
      simp_all [Ending.allows] <;> rfl

end ItemStep

/-! ## Generations -/

/-- Lease generations never decrease along the stream. -/
def ItemView.Sorted (v : ItemView) : Prop :=
  v.stream.Pairwise fun a b => ∀ g ∈ a.leaseGeneration?, ∀ g' ∈ b.leaseGeneration?, g ≤ g'

/-- The generation `g` has ended: its lease was released, or a later one is
there. -/
def ItemView.Ended (v : ItemView) (g : ℤ) : Prop :=
  ∃ row ∈ v.lease, g < row.generation ∨ (g = row.generation ∧ row.released ≠ none)

namespace ItemStep

theorem sorted (h : ItemStep now op v v') (hv : v.Wf) (hs : v.Sorted) : v'.Sorted := by
  obtain ⟨es, hes, hnew⟩ := h.stream_eq
  unfold ItemView.Sorted at *
  rw [hes, List.pairwise_append]
  refine ⟨hs, List.pairwise_of_forall_mem_list fun a ha b hb g hg g' hg' => ?_,
    fun a ha b hb g hg g' hg' => ?_⟩
  · -- the events of one batch carry one generation
    obtain ⟨row, hrow, rfl⟩ := hnew a ha g hg
    obtain ⟨row', hrow', rfl⟩ := hnew b hb g' hg'
    cases Option.mem_unique hrow hrow'
    exact le_rfl
  · obtain ⟨row, hrow, hle⟩ := hv.generation_le a ha g hg
    obtain ⟨row', hrow', hmono⟩ := h.generation_mono row hrow
    obtain ⟨row'', hrow'', rfl⟩ := hnew b hb g' hg'
    cases Option.mem_unique hrow' hrow''
    exact hle.trans hmono

/-- **A generation that has ended is not recorded again.** -/
theorem ended (h : ItemStep now op v v') {g : ℤ} (hg : v.Ended g) :
    v'.Ended g ∧ ∃ es, v'.stream = v.stream ++ es ∧
      ∀ e ∈ es, ∀ g' ∈ e.leaseGeneration?, g < g' := by
  obtain ⟨row, hrow, hend⟩ := hg
  -- who appends under a generation holds its lease
  have hheld : ∀ {row₀ : WorkLeaseRow}, v.lease = some row₀ → row₀.released = none →
      g < row₀.generation := by
    intro row₀ h₀ hrel
    rw [h₀] at hrow
    cases hrow
    rcases hend with hlt | ⟨-, hne⟩
    · exact hlt
    · exact absurd hrel hne
  have hplain : ∀ {es : List EventEnvelope} {types : List DomainEventType}, Batch es types none →
      ∀ e ∈ es, ∀ g' ∈ e.leaseGeneration?, g < g' := by
    intro es types hb e he g' hg'
    simp [hb.generation e he] at hg'
  have hunder : ∀ {es : List EventEnvelope} {types : List DomainEventType} {n : ℤ},
      Batch es types (some n) → g < n → ∀ e ∈ es, ∀ g' ∈ e.leaseGeneration?, g < g' := by
    intro es types n hb hlt e he g' hg'
    simp only [hb.generation e he, Option.mem_some_iff] at hg'
    omega
  cases h with
  | register _ _ _ _ _ hb => exact ⟨⟨row, hrow, hend⟩, _, rfl, hplain hb⟩
  | publish _ hb => exact ⟨⟨row, hrow, hend⟩, _, rfl, hplain hb⟩
  | redrive _ hb => exact ⟨⟨row, hrow, hend⟩, _, rfl, hplain hb⟩
  | claim _ _ _ hgen _ hb =>
    have hnext := hgen row hrow
    have hlt : g < row.generation + 1 := by rcases hend with hlt | ⟨heq, -⟩ <;> omega
    exact ⟨⟨_, rfl, Or.inl (by omega)⟩, _, rfl, hunder hb (by omega)⟩
  | start hrel _ hb => exact ⟨⟨row, hrow, hend⟩, _, rfl, hunder hb (hheld rfl hrel)⟩
  | heartbeat hrel _ _ hgen hb =>
    have hlt := hheld rfl hrel
    exact ⟨⟨_, rfl, Or.inl (by omega)⟩, _, rfl, hunder hb hlt⟩
  | model hrel _ hgen =>
    have hlt := hheld rfl hrel
    refine ⟨⟨row, hrow, hend⟩, _, rfl, fun e he g' hg' => ?_⟩
    simp only [hgen e he, Option.mem_some_iff] at hg'
    omega
  | cancelQueued _ _ _ _ _ _ hb => exact ⟨⟨row, hrow, hend⟩, _, rfl, hplain hb⟩
  | cancelActive _ _ _ _ _ _ hb => exact ⟨⟨row, hrow, hend⟩, _, rfl, hplain hb⟩
  | requeue _ _ _ _ _ _ hb => exact ⟨⟨row, hrow, hend⟩, _, rfl, hplain hb⟩
  | ending hrel _ _ _ _ _ _ _ _ _ _ _ hb =>
    have hlt := hheld rfl hrel
    exact ⟨⟨_, rfl, Or.inl hlt⟩, _, rfl, hunder hb hlt⟩

end ItemStep

/-! ## Attempts -/

/-- Is it the requeue of a dead letter: the one retry that is scheduled under no
lease? -/
def EventEnvelope.isRequeue (e : EventEnvelope) : Bool :=
  e.eventType = .workRetryScheduled && e.leaseGeneration?.isNone

/-- How many claims a stream has since its item was registered or last requeued. -/
def claimsSinceRequeue (stream : List EventEnvelope) : ℕ :=
  (stream.reverse.takeWhile fun e => !e.isRequeue).countP (·.eventType = .workClaimed)

/-- The attempts of the item are the claims on record. -/
def ItemView.Counted (v : ItemView) : Prop :=
  ∀ item ∈ v.item, item.attemptCount = claimsSinceRequeue v.stream

theorem claimsSinceRequeue_append {stream es : List EventEnvelope}
    (h : ∀ e ∈ es, e.isRequeue = false) : claimsSinceRequeue (stream ++ es) =
      claimsSinceRequeue stream + es.countP (·.eventType = .workClaimed) := by
  unfold claimsSinceRequeue
  have hall : ∀ e ∈ es.reverse, (!e.isRequeue) = true := by
    intro e he
    rw [h e (List.mem_reverse.1 he)]
    rfl
  rw [List.reverse_append, List.takeWhile_append_of_pos hall, List.countP_append,
    List.countP_reverse, Nat.add_comm]

theorem claimsSinceRequeue_append_requeue {stream : List EventEnvelope} {e : EventEnvelope}
    (h : e.isRequeue = true) : claimsSinceRequeue (stream ++ [e]) = 0 := by
  unfold claimsSinceRequeue
  rw [List.reverse_append, List.reverse_singleton, List.singleton_append,
    List.takeWhile_cons_of_neg (by simp [h])]
  rfl

/-- A batch that schedules no retry, or schedules it under a lease, adds its claims. -/
theorem Batch.claims {stream es : List EventEnvelope} {types : List DomainEventType}
    {g : Option ℤ} (hb : Batch es types g) (h : .workRetryScheduled ∉ types ∨ g ≠ none) :
    claimsSinceRequeue (stream ++ es) =
      claimsSinceRequeue stream + types.countP (· = .workClaimed) := by
  have hcount : es.countP (·.eventType = .workClaimed) = types.countP (· = .workClaimed) := by
    rw [← hb.types, List.countP_map]
    rfl
  rw [claimsSinceRequeue_append, hcount]
  intro e he
  by_contra hrequeue
  rw [Bool.not_eq_false, EventEnvelope.isRequeue, Bool.and_eq_true, decide_eq_true_eq,
    Option.isNone_iff_eq_none, hb.generation e he] at hrequeue
  rcases h with h | h
  · exact h (hb.types ▸ hrequeue.1 ▸ List.mem_map_of_mem he)
  · exact h hrequeue.2

namespace ItemStep

/-- **The attempts of an item are its claims on record.** -/
theorem counted (h : ItemStep now op v v') (hc : v.Counted) : v'.Counted := by
  unfold ItemView.Counted at *
  intro item' hitem'
  -- the operations that neither claim nor requeue
  have hkept : ∀ {n : ℤ} {stream es : List EventEnvelope} {types : List DomainEventType}
      {g : Option ℤ}, Batch es types g →
      .workRetryScheduled ∉ types ∨ g ≠ none → types.countP (· = .workClaimed) = 0 →
      n = claimsSinceRequeue stream → n = claimsSinceRequeue (stream ++ es) := by
    intro n stream es types g hb hretry hclaims hold
    rw [hb.claims hretry, hclaims]
    exact hold
  cases h with
  | register _ hzero _ _ _ hb =>
    cases hitem'
    have hclaims : claimsSinceRequeue ([] ++ _) = _ := hb.claims (Or.inl (by decide))
    rw [List.nil_append] at hclaims
    rw [hzero, hclaims]
    rfl
  | @publish item _ _ _ _ _ hb =>
    cases hitem'
    exact hkept hb (Or.inl (by decide)) rfl (hc item rfl)
  | redrive _ hb =>
    cases hitem'
    exact hkept hb (Or.inl (by decide)) rfl (hc _ rfl)
  | claim _ _ _ _ _ hb =>
    cases hitem'
    have hold := hc _ rfl
    dsimp only at hold ⊢
    rw [hb.claims (Or.inl (by decide)), hold]
    rfl
  | @start item _ _ _ _ _ _ hb =>
    cases hitem'
    exact hkept hb (Or.inl (by decide)) rfl (hc item rfl)
  | heartbeat _ _ _ _ hb => exact hkept hb (Or.inl (by decide)) rfl (hc _ hitem')
  | @model _ _ _ stream es _ hwork =>
    have hnot : ∀ e ∈ es, e.eventType ≠ .workRetryScheduled ∧ e.eventType ≠ .workClaimed := by
      intro e he
      have hw := hwork e he
      unfold EventEnvelope.isWork at hw
      constructor <;> (intro heq; rw [heq] at hw; cases hw)
    have hclaims : claimsSinceRequeue (stream ++ es) = _ := claimsSinceRequeue_append fun e he => by
      simp [EventEnvelope.isRequeue, (hnot e he).1]
    have hzero : es.countP (·.eventType = .workClaimed) = 0 :=
      List.countP_eq_zero.2 fun e he => by simp [(hnot e he).2]
    dsimp only at hc ⊢
    rw [hclaims, hzero]
    exact hc _ hitem'
  | cancelQueued _ _ _ _ hcount _ hb =>
    cases hitem'
    exact hkept hb (Or.inl (by decide)) rfl (hcount ▸ hc _ rfl)
  | cancelActive _ _ _ _ hcount _ hb =>
    cases hitem'
    exact hkept hb (Or.inl (by decide)) rfl (hcount ▸ hc _ rfl)
  | @requeue _ _ _ _ _ stream es _ _ hzero _ _ _ hb =>
    cases hitem'
    obtain ⟨e, rfl⟩ : ∃ e, es = [e] := by
      have hlength := congrArg List.length hb.types
      rw [List.length_map] at hlength
      exact List.length_eq_one_iff.1 hlength
    have hrequeue : e.isRequeue = true := by
      have htype := hb.types
      rw [List.map_singleton, List.singleton_inj] at htype
      simp [EventEnvelope.isRequeue, htype, hb.generation e (List.mem_singleton_self e)]
    rw [hzero, claimsSinceRequeue_append_requeue hrequeue]
    rfl
  | @ending e _ _ _ _ _ _ _ _ _ _ _ _ _ _ _ _ hcount _ _ _ _ hb =>
    cases hitem'
    exact hkept hb (Or.inr (by simp)) (by cases e <;> rfl) (hcount ▸ hc _ rfl)

end ItemStep

/-! ## Cancellation -/

/-- The events that may follow a cancellation request. -/
def DomainEventType.followsCancel : DomainEventType → Bool
  | workStarted | workHeartbeat | workLeaseExpired | workCancelRequested | workCancelled => true
  | ty => !ty.isWork

/-- After a cancellation request only the cancellation can come of the item, and
the request is on record. -/
structure ItemView.CancelSafe (v : ItemView) : Prop where
  after : v.stream.Pairwise fun a b => a.eventType = .workCancelRequested →
    b.eventType.followsCancel = true
  recorded : ∀ e ∈ v.stream, e.eventType = .workCancelRequested →
    ∃ item ∈ v.item, item.cancelRequestedAt ≠ none

namespace ItemStep

/-- What is appended to the stream of an item with a cancellation request. -/
theorem follows_of_cancel (h : ItemStep now op v v') (hv : v.Wf) {item : WorkItemRow}
    (hitem : item ∈ v.item) (hc : item.cancelRequestedAt ≠ none) :
    (∃ item' ∈ v'.item, item'.cancelRequestedAt ≠ none ∧
      (item.status = .cancelled → item'.status = .cancelled)) ∧
    ∀ es, v'.stream = v.stream ++ es → ∀ e ∈ es, e.eventType.followsCancel = true := by
  have hstatus := hv.cancel_status item hitem hc
  have hbatch : ∀ {st es : List EventEnvelope} {types : List DomainEventType} {g : Option ℤ},
      Batch es types g → (∀ ty ∈ types, ty.followsCancel = true) →
      ∀ es', st ++ es = st ++ es' → ∀ e ∈ es', e.eventType.followsCancel = true := by
    intro st es types g hb htypes es' heq e he
    rw [← List.append_cancel_left heq] at he
    exact htypes _ (hb.types ▸ List.mem_map_of_mem he)
  cases h with
  | register => cases hitem
  | publish hs => cases hitem; rcases hs with hs | hs <;> simp_all
  | redrive hs =>
    cases hitem; rcases WorkStatus.isQueued_iff.1 hs with hs | hs | hs <;> simp_all
  | claim _ hnone => cases hitem; exact absurd hnone hc
  | start _ hs hb =>
    cases hitem
    exact ⟨⟨_, rfl, hc, fun hcan => by rw [hs] at hcan; cases hcan⟩, hbatch hb (by decide)⟩
  | heartbeat _ _ _ _ hb => exact ⟨⟨item, hitem, hc, id⟩, hbatch hb (by decide)⟩
  | model _ hwork =>
    refine ⟨⟨item, hitem, hc, id⟩, fun es' heq e he => ?_⟩
    rw [← List.append_cancel_left heq] at he
    have := hwork e he
    unfold EventEnvelope.isWork at this
    unfold DomainEventType.followsCancel
    split <;> simp_all
  | cancelQueued hs =>
    cases hitem; rcases WorkStatus.isQueued_iff.1 hs with hs | hs | hs <;> simp_all
  | cancelActive hs hs' hc' _ _ _ hb =>
    cases hitem
    exact ⟨⟨_, rfl, hc', fun hcan => by rw [hs', hcan]⟩, hbatch hb (by decide)⟩
  | requeue hs => cases hitem; simp_all
  | @ending e _ _ _ _ _ _ _ _ _ _ hallows hcancel _ _ hs' hc' _ _ _ _ _ hb =>
    cases hitem
    have he := hcancel.1 hc
    refine ⟨⟨_, rfl, by rw [hc']; exact hc, fun _ => ?_⟩, hbatch hb ?_⟩
    · rw [hs']
      rcases e.target_cases with h | h | h | h <;> simp_all
    · cases e <;> first | (exact absurd he (by decide)) | decide

/-- Within its own batch a cancellation request is followed by the cancellation
only, and it is put on record. -/
theorem cancel_of_mem (h : ItemStep now op v v') {es : List EventEnvelope}
    (hes : v'.stream = v.stream ++ es) :
    (es.Pairwise fun a b => a.eventType = .workCancelRequested →
      b.eventType.followsCancel = true) ∧
    ∀ e ∈ es, e.eventType = .workCancelRequested →
      ∃ item ∈ v'.item, item.cancelRequestedAt ≠ none := by
  -- a batch without a request, and a batch that records it
  have hother : ∀ {es' : List EventEnvelope} {types : List DomainEventType} {g : Option ℤ},
      Batch es' types g → .workCancelRequested ∉ types → es = es' →
      (es.Pairwise fun a b => a.eventType = .workCancelRequested →
        b.eventType.followsCancel = true) ∧
      ∀ e ∈ es, e.eventType = .workCancelRequested →
        ∃ item ∈ v'.item, item.cancelRequestedAt ≠ none := by
    rintro es' types g hb hnot rfl
    have hne : ∀ e ∈ es, e.eventType ≠ .workCancelRequested := fun e he heq =>
      hnot (hb.types ▸ heq ▸ List.mem_map_of_mem he)
    exact ⟨List.pairwise_of_forall_mem_list fun a ha _ _ heq => absurd heq (hne a ha),
      fun e he heq => absurd heq (hne e he)⟩
  have hrecord : ∀ {es' : List EventEnvelope} {types : List DomainEventType} {g : Option ℤ},
      Batch es' types g → (types.Pairwise fun a b => a = .workCancelRequested →
        b.followsCancel = true) → es = es' →
      es.Pairwise fun a b => a.eventType = .workCancelRequested →
        b.eventType.followsCancel = true := by
    rintro es' types g hb htypes rfl
    rw [← hb.types, List.pairwise_map] at htypes
    exact htypes
  cases h with
  | register _ _ _ _ _ hb => exact hother hb (by decide) hes.symm
  | publish _ hb => exact hother hb (by decide) (List.append_cancel_left hes).symm
  | redrive _ hb => exact hother hb (by decide) (List.append_cancel_left hes).symm
  | claim _ _ _ _ _ hb => exact hother hb (by decide) (List.append_cancel_left hes).symm
  | start _ _ hb => exact hother hb (by decide) (List.append_cancel_left hes).symm
  | heartbeat _ _ _ _ hb => exact hother hb (by decide) (List.append_cancel_left hes).symm
  | model _ hwork =>
    rw [List.append_cancel_left hes] at hwork
    have hne : ∀ e ∈ es, e.eventType ≠ .workCancelRequested := by
      intro e he heq
      have hw := hwork e he
      rw [EventEnvelope.isWork, heq] at hw
      cases hw
    exact ⟨List.pairwise_of_forall_mem_list fun a ha _ _ heq => absurd heq (hne a ha),
      fun e he heq => absurd heq (hne e he)⟩
  | cancelQueued _ _ hc _ _ _ hb =>
    exact ⟨hrecord hb (by decide) (List.append_cancel_left hes).symm, fun _ _ _ => ⟨_, rfl, hc⟩⟩
  | cancelActive _ _ hc _ _ _ hb =>
    exact ⟨hrecord hb (by decide) (List.append_cancel_left hes).symm, fun _ _ _ => ⟨_, rfl, hc⟩⟩
  | requeue _ _ _ _ _ _ hb => exact hother hb (by decide) (List.append_cancel_left hes).symm
  | @ending e _ _ _ _ _ _ _ _ _ _ _ _ _ _ _ _ _ _ _ _ _ hb =>
    exact hother hb (by cases e <;> decide) (List.append_cancel_left hes).symm

/-- **Cancellation wins.**  Once a cancellation request is in the stream, nothing
but the cancellation can come of the item. -/
theorem cancelSafe (h : ItemStep now op v v') (hv : v.Wf) (hs : v.CancelSafe) : v'.CancelSafe := by
  obtain ⟨es, hes, -⟩ := h.stream_eq
  obtain ⟨hbatch, hrec⟩ := h.cancel_of_mem hes
  constructor
  · rw [hes, List.pairwise_append]
    refine ⟨hs.after, hbatch, fun a ha b hb hreq => ?_⟩
    obtain ⟨item, hitem, hc⟩ := hs.recorded a ha hreq
    exact (h.follows_of_cancel hv hitem hc).2 es hes b hb
  · intro e he hreq
    rw [hes] at he
    rcases List.mem_append.1 he with he | he
    · obtain ⟨item, hitem, hc⟩ := hs.recorded e he hreq
      obtain ⟨⟨item', hitem', hc', -⟩, -⟩ := h.follows_of_cancel hv hitem hc
      exact ⟨item', hitem', hc'⟩
    · exact hrec e he hreq

/-- A cancelled item stays cancelled. -/
theorem cancelled_stays (h : ItemStep now op v v') (hv : v.Wf) {item : WorkItemRow}
    (hitem : item ∈ v.item) (hs : item.status = .cancelled) :
    ∃ item' ∈ v'.item, item'.status = .cancelled := by
  obtain ⟨⟨item', hitem', -, hstay⟩, -⟩ :=
    h.follows_of_cancel hv hitem (hv.cancelled_at item hitem hs)
  exact ⟨item', hitem', hstay hs⟩

end ItemStep

end AegisPlatform
