import AegisPlatform.Lib.Rotation
import AegisPlatform.Runtime.Scheduler

/-!
# Fairness of the scheduler

What `FairTenantScheduler` promises over whole runs of `add` and `pop`.

* `Trace` — a run, event by event.
* `Trace.queued_eq` — each tenant's items come out in the order they went in.
* `Trace.rotates` — the deque is a rotation, whose turns are the items popped.
* `fair_tenant_scheduling` — the promises together.
-/

namespace AegisPlatform

namespace FairTenantScheduler

variable {α : Type}

/-- A call of the scheduler. -/
inductive SchedulerCall (α : Type) where
  | add (xs : List α)
  | pop

/-- A call with its answer. -/
inductive Event (α : Type) where
  | added (xs : List α)
  | popped (x : Option α)

namespace Event

/-- The call. -/
def call : Event α → SchedulerCall α
  | added xs => .add xs
  | popped _ => .pop

/-- The items it adds. -/
def ins : Event α → List α
  | added xs => xs
  | popped _ => []

/-- The item it pops. -/
def out : Event α → List α
  | added _ => []
  | popped x => x.toList

end Event

/-- The items added. -/
def added (events : List (Event α)) : List α := events.flatMap Event.ins

/-- The items popped. -/
def popped (events : List (Event α)) : List α := events.flatMap Event.out

/-- What is queued for a tenant. -/
def queued (s : FairTenantScheduler α) (t : String) : List α := (s.queues.lookup t).getD []

/-- A run of the scheduler. -/
inductive Trace (tenantId : α → String) :
    FairTenantScheduler α → List (Event α) → FairTenantScheduler α → Prop
  | nil (s : FairTenantScheduler α) : Trace tenantId s [] s
  | add {s u : FairTenantScheduler α} {events : List (Event α)} (xs : List α) :
      Trace tenantId (s.add tenantId xs) events u → Trace tenantId s (.added xs :: events) u
  | pop {s t u : FairTenantScheduler α} {events : List (Event α)} {x : Option α} :
      s.pop = .ok (x, t) → Trace tenantId t events u → Trace tenantId s (.popped x :: events) u

/-! ## The queues -/

variable {tenantId : α → String} {s s' : FairTenantScheduler α} {x : α}

theorem queued_addOne (s : FairTenantScheduler α) (x : α) (t : String) :
    (s.addOne tenantId x).queued t = s.queued t ++ [x].filter (tenantId · = t) := by
  unfold queued addOne
  dsimp only
  rw [Table.lookup_upsert]
  by_cases ht : t = tenantId x
  · subst ht
    rw [if_pos rfl, List.filter_cons_of_pos (by simp)]
    rfl
  · rw [if_neg ht, List.filter_cons_of_neg (by simpa using Ne.symm ht), List.filter_nil,
      List.append_nil]

theorem queued_add (s : FairTenantScheduler α) (xs : List α) (t : String) :
    (s.add tenantId xs).queued t = s.queued t ++ xs.filter (tenantId · = t) := by
  induction xs generalizing s with
  | nil => exact (List.append_nil _).symm
  | cons x rest ih =>
    show ((s.addOne tenantId x).add tenantId rest).queued t = _
    rw [ih, queued_addOne, List.append_assoc, ← List.filter_append, List.singleton_append]

/-- Additions leave the deque as it is, or extend it. -/
theorem roundRobin_add (s : FairTenantScheduler α) (xs : List α) :
    ∃ joining, (s.add tenantId xs).roundRobin = s.roundRobin ++ joining := by
  induction xs generalizing s with
  | nil => exact ⟨[], (List.append_nil _).symm⟩
  | cons x rest ih =>
    obtain ⟨joining, hjoining⟩ := ih (s.addOne tenantId x)
    have hone : ∃ m, (s.addOne tenantId x).roundRobin = s.roundRobin ++ m := by
      unfold addOne
      dsimp only
      split
      · exact ⟨_, rfl⟩
      · exact ⟨[], (List.append_nil _).symm⟩
    obtain ⟨m, hm⟩ := hone
    refine ⟨m ++ joining, ?_⟩
    show ((s.addOne tenantId x).add tenantId rest).roundRobin = _
    rw [hjoining, hm, List.append_assoc]

/-- Every item is queued under its own tenant. -/
def Sorted (tenantId : α → String) (s : FairTenantScheduler α) : Prop :=
  ∀ t, ∀ x ∈ s.queued t, tenantId x = t

theorem sorted_empty : (empty : FairTenantScheduler α).Sorted tenantId :=
  fun _ _ h => absurd h List.not_mem_nil

theorem Sorted.add (h : s.Sorted tenantId) (xs : List α) : (s.add tenantId xs).Sorted tenantId := by
  intro t x hx
  rw [queued_add, List.mem_append, List.mem_filter] at hx
  rcases hx with hx | ⟨-, hx⟩
  · exact h t x hx
  · simpa using hx

/-- **A pop takes the first item of the first tenant's queue**, and the tenant goes to the
back of the deque, or leaves it with its last item. -/
theorem Sorted.pop (h : s.Sorted tenantId) (hpop : s.pop = .ok (some x, s')) :
    ∃ rest, s.roundRobin = tenantId x :: rest ∧
      s.queued (tenantId x) = x :: s'.queued (tenantId x) ∧
      (∀ u, u ≠ tenantId x → s'.queued u = s.queued u) ∧
      (s'.roundRobin = rest ∧ s'.queued (tenantId x) = [] ∨
        s'.roundRobin = rest ++ [tenantId x]) := by
  obtain ⟨t, rest, queue, hturn, hlookup, hcases⟩ := pop_eq_some hpop
  have hqueued : s.queued t = x :: queue := by rw [queued, hlookup]; rfl
  have ht : tenantId x = t := h t x (by rw [hqueued]; exact List.mem_cons_self)
  rw [ht, hqueued]
  refine ⟨rest, hturn, ?_⟩
  rcases hcases with ⟨rfl, rfl⟩ | ⟨-, rfl⟩
  · have hnone : queued ⟨s.queues.delete t, rest⟩ t = [] := by
      rw [queued, Table.lookup_delete, if_pos rfl]
      rfl
    refine ⟨by rw [hnone], fun u hu => ?_, Or.inl ⟨rfl, hnone⟩⟩
    rw [queued, Table.lookup_delete, if_neg hu, queued]
  · refine ⟨?_, fun u hu => ?_, Or.inr rfl⟩
    · rw [queued, Table.lookup_upsert_self]
      rfl
    · rw [queued, Table.lookup_upsert_ne _ _ hu, queued]

/-! ## Runs -/

/-- What the scheduler keeps. -/
structure Kept (tenantId : α → String) (s : FairTenantScheduler α) : Prop where
  wellFormed : s.WellFormed
  sorted : s.Sorted tenantId

theorem kept_empty : (empty : FairTenantScheduler α).Kept tenantId := ⟨wellFormed_empty, sorted_empty⟩

theorem Kept.add (h : s.Kept tenantId) (xs : List α) : (s.add tenantId xs).Kept tenantId :=
  ⟨add_wellFormed xs h.wellFormed, h.sorted.add xs⟩

/-- `None` is popped where the deque is empty, and then nothing changes. -/
theorem pop_eq_none (h : s.pop = .ok (none, s')) : s.roundRobin = [] ∧ s' = s := by
  unfold FairTenantScheduler.pop at h
  split at h
  · cases h
    exact ⟨‹_›, rfl⟩
  · split at h
    · cases h
    · cases h
    · split at h <;> cases h

theorem Kept.pop {x : Option α} (h : s.Kept tenantId) (hpop : s.pop = .ok (x, s')) :
    s'.Kept tenantId := by
  cases x with
  | none =>
    rw [(pop_eq_none hpop).2]
    exact h
  | some x =>
    refine ⟨(h.wellFormed.pop_perm hpop).1, fun t y hy => ?_⟩
    obtain ⟨rest, -, hqueue, hothers, -⟩ := h.sorted.pop hpop
    by_cases ht : t = tenantId x
    · subst ht
      exact h.sorted _ y (by rw [hqueue]; exact List.mem_cons_of_mem _ hy)
    · rw [hothers t ht] at hy
      exact h.sorted t y hy

/-- A pop never raises. -/
theorem Kept.exists_pop (h : s.Kept tenantId) : ∃ x s', s.pop = .ok (x, s') := by
  by_cases hempty : s.roundRobin = []
  · refine ⟨none, s, ?_⟩
    unfold FairTenantScheduler.pop
    rw [hempty]
  · obtain ⟨x, s', hpop⟩ := h.wellFormed.pop_ok hempty
    exact ⟨some x, s', hpop⟩

theorem Kept.pending_eq_nil (h : s.Kept tenantId) : s.pending = [] ↔ s.roundRobin = [] := by
  constructor
  · intro hpending
    by_contra hne
    obtain ⟨x, s', hpop⟩ := h.wellFormed.pop_ok hne
    have hperm := (h.wellFormed.pop_perm hpop).2
    rw [hpending] at hperm
    exact absurd hperm.length_eq (by simp)
  · intro hempty
    rw [pending, hempty]
    rfl

/-- **`None` comes out exactly when nothing is queued.** -/
theorem Kept.pop_none_iff {x : Option α} (h : s.Kept tenantId) (hpop : s.pop = .ok (x, s')) :
    x = none ↔ s.pending = [] := by
  rw [h.pending_eq_nil]
  constructor
  · rintro rfl
    exact (pop_eq_none hpop).1
  · intro hempty
    unfold FairTenantScheduler.pop at hpop
    rw [hempty] at hpop
    cases hpop
    rfl

namespace Trace

variable {events : List (Event α)}

theorem kept (h : Trace tenantId s events s') (hs : s.Kept tenantId) : s'.Kept tenantId := by
  induction h with
  | nil => exact hs
  | add xs _ ih => exact ih (hs.add xs)
  | pop hpop _ ih => exact ih (hs.pop hpop)

/-- Any calls can be made. -/
theorem exists_of_calls (calls : List (SchedulerCall α)) (hs : s.Kept tenantId) :
    ∃ events s', Trace tenantId s events s' ∧ events.map Event.call = calls := by
  induction calls generalizing s with
  | nil => exact ⟨[], s, .nil s, rfl⟩
  | cons call rest ih =>
    cases call with
    | add xs =>
      obtain ⟨events, s', htrace, hcalls⟩ := ih (hs.add xs)
      exact ⟨.added xs :: events, s', .add xs htrace, congrArg (_ :: ·) hcalls⟩
    | pop =>
      obtain ⟨x, t, hpop⟩ := hs.exists_pop
      obtain ⟨events, s', htrace, hcalls⟩ := ih (hs.pop hpop)
      exact ⟨.popped x :: events, s', .pop hpop htrace, congrArg (_ :: ·) hcalls⟩

/-- **Nothing is lost and nothing is doubled.** -/
theorem perm (h : Trace tenantId s events s') (hs : s.Kept tenantId) :
    (popped events ++ s'.pending).Perm (s.pending ++ added events) := by
  induction h with
  | nil s => exact List.Perm.of_eq (List.append_nil _).symm
  | @add s u events xs _ ih =>
    refine (ih (hs.add xs)).trans ?_
    refine ((add_perm xs hs.wellFormed).append_right (added events)).trans ?_
    rw [show added (.added xs :: events) = xs ++ added events from rfl, ← List.append_assoc]
    exact List.perm_append_comm.append_right _
  | @pop s t u events x hpop _ ih =>
    have hrest := ih (hs.pop hpop)
    rw [show added (.popped x :: events) = added events from rfl,
      show popped (.popped x :: events) = x.toList ++ popped events from rfl, List.append_assoc]
    cases x with
    | none =>
      rw [(pop_eq_none hpop).2] at hrest
      exact hrest
    | some x =>
      refine (hrest.cons x).trans ?_
      exact ((hs.wellFormed.pop_perm hpop).2.symm.append_right (added events))

/-- **Each tenant's items come out in the order in which they were added.** -/
theorem queued_eq (h : Trace tenantId s events s') (hs : s.Kept tenantId) (t : String) :
    (popped events).filter (tenantId · = t) ++ s'.queued t =
      s.queued t ++ (added events).filter (tenantId · = t) := by
  induction h with
  | nil s => exact (List.append_nil _).symm
  | @add s u events xs _ ih =>
    rw [show popped (.added xs :: events) = popped events from rfl, ih (hs.add xs), queued_add,
      show added (.added xs :: events) = xs ++ added events from rfl, List.filter_append,
      List.append_assoc]
  | @pop s v u events x hpop _ ih =>
    rw [show added (.popped x :: events) = added events from rfl,
      show popped (.popped x :: events) = x.toList ++ popped events from rfl, List.filter_append,
      List.append_assoc, ih (hs.pop hpop)]
    cases x with
    | none =>
      rw [(pop_eq_none hpop).2]
      rfl
    | some x =>
      obtain ⟨rest, -, hqueue, hothers, -⟩ := hs.sorted.pop hpop
      by_cases ht : t = tenantId x
      · subst ht
        rw [hqueue, Option.toList_some, List.filter_cons_of_pos (by simp)]
        rfl
      · rw [hothers t ht, Option.toList_some, List.filter_cons_of_neg (by simpa using Ne.symm ht)]
        rfl

/-- The predicate holds of every state of the run. -/
def Throughout (tenantId : α → String) (P : FairTenantScheduler α → Prop)
    (s : FairTenantScheduler α) (events : List (Event α)) : Prop :=
  ∀ before after t, events = before ++ after → Trace tenantId s before t → P t

/-- **The deque is a rotation, and its turns are the items popped.** -/
theorem rotates (h : Trace tenantId s events s') (hs : s.Kept tenantId) {u : String}
    (hqueued : Throughout tenantId (fun t => t.queued u ≠ []) s events) :
    Rotation.Run (fun l => l.Nodup ∧ u ∈ l) s.roundRobin ((popped events).map tenantId)
      s'.roundRobin := by
  have hhere : s.roundRobin.Nodup ∧ u ∈ s.roundRobin :=
    ⟨hs.wellFormed.nodup, hs.wellFormed.mem_listed (hqueued [] events s rfl (.nil s))⟩
  induction h with
  | nil s => exact .nil hhere
  | @add s v events xs _ ih =>
    have hkept := hs.add xs
    have hlater : Throughout tenantId (fun t => t.queued u ≠ []) (s.add tenantId xs) events :=
      fun before after t heq htrace => hqueued (.added xs :: before) after t (by rw [heq]; rfl)
        (.add xs htrace)
    have hnext : (s.add tenantId xs).roundRobin.Nodup ∧ u ∈ (s.add tenantId xs).roundRobin :=
      ⟨hkept.wellFormed.nodup, hkept.wellFormed.mem_listed (hlater [] events _ rfl (.nil _))⟩
    have hrun := ih hkept hlater hnext
    obtain ⟨joining, hjoining⟩ := @roundRobin_add α tenantId s xs
    rw [hjoining] at hrun
    exact Rotation.Run.step hhere (.join s.roundRobin joining) hrun
  | @pop s v w events x hpop _ ih =>
    have hkept := hs.pop hpop
    have hlater : Throughout tenantId (fun t => t.queued u ≠ []) v events :=
      fun before after t heq htrace => hqueued (.popped x :: before) after t (by rw [heq]; rfl)
        (.pop hpop htrace)
    have hnext : v.roundRobin.Nodup ∧ u ∈ v.roundRobin :=
      ⟨hkept.wellFormed.nodup, hkept.wellFormed.mem_listed (hlater [] events _ rfl (.nil _))⟩
    have hrun := ih hkept hlater hnext
    cases x with
    | none =>
      rw [(pop_eq_none hpop).2] at hrun
      exact hrun
    | some x =>
      obtain ⟨rest, hturn, -, -, hcases⟩ := hs.sorted.pop hpop
      rw [hturn] at hhere ⊢
      rcases hcases with ⟨hleft, -⟩ | hstays
      · rw [hleft] at hrun
        exact Rotation.Run.step hhere (.leave (tenantId x) rest) hrun
      · rw [hstays] at hrun
        exact Rotation.Run.step hhere (.stay (tenantId x) rest) hrun

end Trace

/-- **Fair scheduling.**  Any calls can be made; nothing is lost or doubled, each tenant's
items come out in order, and the deque lists the tenants that have any.  Between two pops of a
tenant, every other one that has items all the time is popped exactly once. -/
theorem fair_tenant_scheduling (tenantId : α → String) :
    (∀ calls : List (SchedulerCall α), ∃ events s, Trace tenantId empty events s ∧
      events.map Event.call = calls) ∧
    ∀ events s, Trace tenantId empty events s →
      (popped events ++ s.pending).Perm (added events) ∧
      (∀ t, (popped events).filter (tenantId · = t) ++ s.queued t =
        (added events).filter (tenantId · = t)) ∧
      (∀ x s', s.pop = .ok (x, s') → (x = none ↔ s.pending = [])) ∧
      s.roundRobin.Nodup ∧ (∀ t, t ∈ s.roundRobin ↔ s.queued t ≠ []) ∧
      ∀ x y s₁ between s₂ s₃, s.pop = .ok (some x, s₁) → Trace tenantId s₁ between s₂ →
        s₂.pop = .ok (some y, s₃) → tenantId y = tenantId x →
        (∀ z ∈ popped between, tenantId z ≠ tenantId x) →
        Trace.Throughout tenantId (fun t => t.queued (tenantId x) ≠ []) s₁ between →
        ∀ u, u ≠ tenantId x →
          Trace.Throughout tenantId (fun t => t.queued u ≠ []) s₁ between →
          ((popped between).filter (tenantId · = u)).length = 1 := by
  refine ⟨fun calls => Trace.exists_of_calls calls kept_empty, fun events s htrace => ?_⟩
  have hkept := htrace.kept kept_empty
  refine ⟨htrace.perm kept_empty, htrace.queued_eq kept_empty, fun x s' hpop => hkept.pop_none_iff hpop,
    hkept.wellFormed.nodup, fun t => ⟨fun ht => ?_, hkept.wellFormed.mem_listed⟩, ?_⟩
  · exact fun hnil => hkept.wellFormed.not_listed hnil ht
  intro x y s₁ between s₂ s₃ hfirst hbetween hsecond hsame hother hqueued u hu hothers
  have hkept₁ := hkept.pop hfirst
  have hkept₂ := hbetween.kept hkept₁
  obtain ⟨rest, -, -, -, hcases⟩ := hkept.sorted.pop hfirst
  obtain ⟨rest', hturn, -⟩ := hkept₂.sorted.pop hsecond
  have hback : s₁.roundRobin = rest ++ [tenantId x] := by
    rcases hcases with ⟨-, hnone⟩ | hback
    · exact absurd hnone (hqueued [] between s₁ rfl (.nil s₁))
    · exact hback
  have hrun := hbetween.rotates hkept₁ hothers
  rw [hback, hturn, hsame] at hrun
  have hcount := hrun.fair hu fun hmem => by
    obtain ⟨z, hz, heq⟩ := List.mem_map.1 hmem
    exact hother z hz heq
  rw [← hcount, List.count_eq_countP, List.countP_map, List.countP_eq_length_filter]
  congr 1

end FairTenantScheduler

end AegisPlatform
