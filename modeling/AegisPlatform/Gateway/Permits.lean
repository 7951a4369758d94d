import Mathlib.Data.List.Basic

/-!
# The concurrency permits of a model

`_acquire_semaphore` races a task that waits for a permit against a timeout, a cancellation
token and the cancellation of its own caller.

* `Future`, `Waiting`, `AcquireTask` — `asyncio.wait_for(semaphore.acquire(), …)` as a task.
* `Acquisition` — one call of `_acquire_semaphore`, up to the release of its permit.
* `Sys`, `Sys.step` — the semaphore with all its acquisitions; the steps are the turns the event
  loop gives to tasks and callbacks, in any order.
* `Sys.permits_conserved` — a call holds one permit when it has returned and none when it has
  raised, provided cancellations of the caller keep away from two moments.
* `Sys.leaked_for_good` — what happens when they do not.
-/

namespace AegisPlatform

namespace Permits

/-! ## The acquire task -/

/-- The future a waiter of a semaphore waits on. -/
inductive Future where
  | pending
  | granted
  | cancelled
  deriving DecidableEq, Repr

/-- `semaphore.acquire()` at its future, under the timeout: whether a `CancelledError` is due at
the next turn though the future has a result, whether the timeout has fired, and whether
anybody else has cancelled the task. -/
structure Waiting where
  future : Future := .pending
  mustCancel : Bool := false
  expired : Bool := false
  cancelRequested : Bool := false
  deriving DecidableEq, Repr

/-- The acquire task; `absent` before `create_task`. -/
inductive AcquireTask where
  | absent
  | created (cancelRequested : Bool)
  | waiting (w : Waiting)
  | acquired
  | timedOut
  | cancelled
  deriving DecidableEq, Repr

/-- A cancellation reaches the future, or the next turn when the future has its result. -/
def Waiting.interrupt (w : Waiting) : Waiting :=
  if w.future = .pending then { w with future := .cancelled } else { w with mustCancel := true }

/-- How the task ends with its `CancelledError`: a timeout is reported as such unless somebody
else has cancelled the task. -/
def Waiting.ended (w : Waiting) : AcquireTask :=
  if w.expired && !w.cancelRequested then .timedOut else .cancelled

namespace AcquireTask

/-- `task.cancel()`. -/
def cancel : AcquireTask → AcquireTask
  | created _ => created true
  | waiting w => waiting { w.interrupt with cancelRequested := true }
  | task => task

/-- The timeout fires, and cancels the task. -/
def expire : AcquireTask → AcquireTask
  | waiting w => waiting { w.interrupt with expired := true }
  | task => task

def isDone : AcquireTask → Bool
  | acquired | timedOut | cancelled => true
  | _ => false

/-- A task that will not end with a permit. -/
def Barred : AcquireTask → Prop
  | absent => True
  | created cancelRequested => cancelRequested = true
  | waiting w => w.future = .cancelled ∨ w.mustCancel = true
  | acquired => False
  | timedOut => True
  | cancelled => True

end AcquireTask

/-! ## Acquisitions -/

/-- What `_acquire_semaphore` raises: its two `ModelGatewayError`s, or the `CancelledError` of
the calling task. -/
inductive AcquireError where
  | concurrencyCancelled
  | concurrencyTimeout
  | taskCancelled
  deriving DecidableEq, Repr

/-- Where the calling task is. -/
inductive Caller where
  /-- At `await acquire_task`, or at `asyncio.wait` when there is a token. -/
  | waiting
  /-- At the `await` of the acquire task it has cancelled because of the token. -/
  | cancelling
  /-- At the `gather` of the `finally` clause, with its `CancelledError`. -/
  | finishing
  /-- Between acquire and release. -/
  | returned
  | raised (e : AcquireError)
  | released
  deriving DecidableEq, Repr

/-- A call of `_acquire_semaphore`. -/
structure Acquisition where
  hasToken : Bool
  /-- Has the task that waits for the token finished? -/
  tokenDone : Bool := false
  task : AcquireTask := .created false
  caller : Caller := .waiting
  /-- Is a `CancelledError` due, or delivered, at the calling task itself? -/
  cancelled : Bool := false
  /-- Has `semaphore.release()` been called for the permit? -/
  released : Bool := false
  deriving DecidableEq, Repr

namespace Acquisition

/-- Is a permit of the semaphore taken for the call? -/
def permit (a : Acquisition) : Bool :=
  match a.task with
  | .waiting w => w.future = .granted
  | .acquired => !a.released
  | _ => false

/-- Is the call still under way? -/
def isPending (a : Acquisition) : Bool :=
  match a.caller with
  | .waiting | .cancelling | .finishing => true
  | _ => false

end Acquisition

/-- A semaphore and the calls that use it; `waiters` are places in `acquisitions`. -/
structure Sys where
  value : ℕ
  waiters : List ℕ
  acquisitions : List Acquisition
  deriving DecidableEq, Repr

namespace Sys

def start (concurrency : ℕ) : Sys := ⟨concurrency, [], []⟩

def put (s : Sys) (i : ℕ) (a : Acquisition) : Sys :=
  { s with acquisitions := s.acquisitions.set i a }

/-- The future of a waiter. -/
def future? (s : Sys) (i : ℕ) : Option Future :=
  match s.acquisitions[i]? with
  | some { task := .waiting w, .. } => some w.future
  | _ => none

/-! ## The semaphore -/

/-- `locked()`. -/
def locked (s : Sys) : Bool :=
  s.value = 0 || s.waiters.any fun i => s.future? i ≠ some .cancelled

/-- The future of a waiter gets its result. -/
def grant (a : Acquisition) : Acquisition :=
  match a.task with
  | .waiting w => { a with task := .waiting { w with future := .granted } }
  | _ => a

/-- `_wake_up_next`: the first waiter whose future is not done gets a permit. -/
def wakeUpNext (s : Sys) : Option Sys :=
  match s.waiters.find? fun i => s.future? i = some .pending with
  | none => none
  | some i => s.acquisitions[i]?.map fun a => { s.put i (grant a) with value := s.value - 1 }

/-- The loop at the end of `acquire`; every turn but the last takes a permit. -/
def wakeUp : ℕ → Sys → Sys
  | 0, s => s
  | n + 1, s =>
    match s.wakeUpNext with
    | none => s
    | some s => wakeUp n s

/-- `release`. -/
def release (s : Sys) : Sys :=
  let s := { s with value := s.value + 1 }
  s.wakeUpNext.getD s

/-! ## Turns -/

/-- A turn of the acquire task: its first one, in which it takes a permit or lines up, or the
one after its future is done. -/
def runTask (s : Sys) (i : ℕ) (a : Acquisition) : Option Sys :=
  match a.task with
  | .created cancelRequested =>
    if cancelRequested then some (s.put i { a with task := .cancelled })
    else if s.locked then
      some { s.put i { a with task := .waiting {} } with waiters := s.waiters ++ [i] }
    else some { s.put i { a with task := .acquired } with value := s.value - 1 }
  | .waiting w =>
    let s := { s with waiters := s.waiters.erase i }
    match w.future with
    | .pending => none
    | .granted =>
      if w.mustCancel then
        -- the future got a result but the task was cancelled before it ran
        let s := { s.put i { a with task := w.ended } with value := s.value + 1 }
        some (s.wakeUp s.value)
      else
        let s := s.put i { a with task := .acquired }
        some (s.wakeUp s.value)
    | .cancelled =>
      let s := s.put i { a with task := w.ended }
      some (s.wakeUp s.value)
  | _ => none

/-- What the calling task meets when it awaits the finished acquire task. -/
def outcome : AcquireTask → Option Caller
  | .acquired => some .returned
  | .timedOut => some (.raised .concurrencyTimeout)
  | .cancelled => some (.raised .taskCancelled)
  | _ => none

/-- A turn of the calling task, when it has something to resume with. -/
def resume (s : Sys) (i : ℕ) (a : Acquisition) : Option Sys :=
  match a.caller with
  | .waiting =>
    if a.hasToken then
      if a.cancelled then
        -- the `finally` clause waits for the acquire task
        some (s.put i { a with caller :=
          if a.task.isDone then .raised .taskCancelled else .finishing })
      else if a.tokenDone then
        match a.task with
        | .acquired =>
          some (s.put i { a with caller := .raised .concurrencyCancelled, released := true }).release
        | .timedOut => some (s.put i { a with caller := .raised .concurrencyTimeout })
        | .cancelled => some (s.put i { a with caller := .raised .concurrencyCancelled })
        | task => some (s.put i { a with task := task.cancel, caller := .cancelling })
      else (outcome a.task).map fun caller => s.put i { a with caller := caller }
    else if a.cancelled then
      if a.task.isDone then some (s.put i { a with caller := .raised .taskCancelled }) else none
    else (outcome a.task).map fun caller => s.put i { a with caller := caller }
  | .cancelling =>
    match a.task with
    -- a `CancelledError` is suppressed here, the caller's own as well
    | .timedOut =>
      let e := if a.cancelled then .concurrencyCancelled else .concurrencyTimeout
      some (s.put i { a with caller := .raised e })
    | .acquired | .cancelled => some (s.put i { a with caller := .raised .concurrencyCancelled })
    | _ => none
  | .finishing =>
    if a.task.isDone then some (s.put i { a with caller := .raised .taskCancelled }) else none
  | _ => none

/-- Somebody cancels the calling task.  The cancellation goes on to the acquire task where the
caller awaits it and it is not done; else it is due at the caller. -/
def cancel (s : Sys) (i : ℕ) (a : Acquisition) : Option Sys :=
  match a.caller with
  | .waiting =>
    if a.hasToken || a.task.isDone then some (s.put i { a with cancelled := true })
    else some (s.put i { a with task := a.task.cancel })
  | .cancelling =>
    if a.task.isDone then some (s.put i { a with cancelled := true })
    else some (s.put i { a with task := a.task.cancel })
  | .finishing => some (s.put i { a with task := a.task.cancel })
  | _ => none

/-- What the event loop, and the world around it, may do next. -/
inductive Event where
  /-- A call begins: with a token or not, that is set or not, and time left or not. -/
  | begin (cancellation : Option Bool) (timeLeft : Bool)
  | runTask (i : ℕ)
  /-- The timeout of the acquire task fires. -/
  | timeout (i : ℕ)
  /-- The task that waits for the token finishes. -/
  | token (i : ℕ)
  | cancel (i : ℕ)
  | resume (i : ℕ)
  /-- `_try_model` releases the permit. -/
  | release (i : ℕ)
  deriving DecidableEq, Repr

/-- What a call begins as: its two checks come before any task. -/
def begun (cancellation : Option Bool) (timeLeft : Bool) : Acquisition :=
  if cancellation = some true then
    { hasToken := true, task := .absent, caller := .raised .concurrencyCancelled }
  else if !timeLeft then
    { hasToken := cancellation.isSome, task := .absent, caller := .raised .concurrencyTimeout }
  else { hasToken := cancellation.isSome }

def step (s : Sys) : Event → Option Sys
  | .begin cancellation timeLeft =>
    some { s with acquisitions := s.acquisitions ++ [begun cancellation timeLeft] }
  | .runTask i => s.acquisitions[i]?.bind fun a => s.runTask i a
  | .timeout i => s.acquisitions[i]?.map fun a => s.put i { a with task := a.task.expire }
  | .token i => s.acquisitions[i]?.bind fun a =>
    if a.hasToken ∧ a.caller = .waiting then some (s.put i { a with tokenDone := true }) else none
  | .cancel i => s.acquisitions[i]?.bind fun a => s.cancel i a
  | .resume i => s.acquisitions[i]?.bind fun a => s.resume i a
  | .release i => s.acquisitions[i]?.bind fun a =>
    if a.caller = .returned then
      some (s.put i { a with caller := .released, released := true }).release
    else none

/-! ## What a permit is for -/

/-- A turn of the acquire task that ends with a permit. -/
def takes (s : Sys) (a : Acquisition) : Bool :=
  match a.task with
  | .created cancelRequested => !cancelRequested && !s.locked
  | .waiting w => w.future = .granted && !w.mustCancel
  | _ => false

/-- An event keeps away from the two moments at which a cancelled caller leaves a permit behind:
between the end of its acquire task with a permit and its own next turn, and, when it has been
cancelled in `asyncio.wait`, up to the end of its acquire task. -/
def Undisturbed (s : Sys) : Event → Prop
  | .cancel i => ∀ a, s.acquisitions[i]? = some a → a.task ≠ .acquired
  | .runTask i => ∀ a, s.acquisitions[i]? = some a → a.cancelled = true → s.takes a = false
  | _ => True

/-- What runs reach whose events all meet a condition. -/
inductive Reaches (P : Sys → Event → Prop) : Sys → Sys → Prop
  | refl (s : Sys) : Reaches P s s
  | step {s t u : Sys} {e : Event} : Reaches P s t → P t e → t.step e = some u → Reaches P s u

end Sys

/-- What is known of a call, by the place of its caller. -/
def Acquisition.Sound (a : Acquisition) : Prop :=
  match a.caller with
  | .waiting => a.released = false ∧ (a.cancelled = true → a.task ≠ .acquired)
  | .cancelling => a.released = false ∧ a.task.Barred
  | .finishing => a.released = false ∧ a.cancelled = true ∧ a.task ≠ .acquired
  | .returned => a.released = false ∧ a.task = .acquired
  | .raised _ => a.permit = false ∧ (a.task = .absent ∨ a.task.isDone = true)
  | .released => a.released = true ∧ a.task = .acquired

theorem Waiting.ended_cases (w : Waiting) : w.ended = .timedOut ∨ w.ended = .cancelled := by
  unfold ended
  split
  · exact Or.inl rfl
  · exact Or.inr rfl

namespace AcquireTask

variable {task : AcquireTask}

/-- A task that has been cancelled in time is barred. -/
theorem barred_cancel (h : task ≠ .acquired) : task.cancel.Barred := by
  cases task with
  | absent => trivial
  | created r => rfl
  | waiting w =>
    by_cases hpending : w.future = .pending
    · simp [cancel, Barred, Waiting.interrupt, hpending]
    · simp [cancel, Barred, Waiting.interrupt, hpending]
  | acquired => exact absurd rfl h
  | timedOut => trivial
  | cancelled => trivial

theorem Barred.expire (h : task.Barred) : task.expire.Barred := by
  cases task with
  | waiting w =>
    by_cases hpending : w.future = .pending
    · simp [AcquireTask.expire, Barred, Waiting.interrupt, hpending]
    · simp [AcquireTask.expire, Barred, Waiting.interrupt, hpending]
  | _ => exact h

theorem cancel_ne_acquired (h : task ≠ .acquired) : task.cancel ≠ .acquired := by
  cases task <;> simp_all [cancel]

theorem expire_ne_acquired (h : task ≠ .acquired) : task.expire ≠ .acquired := by
  cases task <;> simp_all [expire]

end AcquireTask

namespace Acquisition

variable {a : Acquisition} {task : AcquireTask}

/-- A task that is under way may change, as long as it does not take a permit that is not wanted
any more. -/
theorem Sound.withTask (h : a.Sound) (hdone : ¬ (a.task = .absent ∨ a.task.isDone = true))
    (hbarred : a.task.Barred → task.Barred) (hcancelled : a.cancelled = true → task ≠ .acquired) :
    Sound { a with task := task } := by
  unfold Sound at h ⊢
  cases hcaller : a.caller with
  | waiting =>
    rw [hcaller] at h
    exact ⟨h.1, hcancelled⟩
  | cancelling =>
    rw [hcaller] at h
    exact ⟨h.1, hbarred h.2⟩
  | finishing =>
    rw [hcaller] at h
    exact ⟨h.1, h.2.1, hcancelled h.2.1⟩
  | returned =>
    rw [hcaller] at h
    exact absurd (Or.inr (by rw [h.2]; rfl)) hdone
  | raised e =>
    rw [hcaller] at h
    exact absurd h.2 hdone
  | released =>
    rw [hcaller] at h
    exact absurd (Or.inr (by rw [h.2]; rfl)) hdone

/-- A cancellation takes no permit and gives none back; the next turn does. -/
theorem permit_interrupt {w : Waiting} {r x : Bool} (htask : a.task = .waiting w) :
    permit { a with task := .waiting { w.interrupt with cancelRequested := r, expired := x } } =
      a.permit := by
  by_cases hpending : w.future = .pending
  · simp [permit, htask, Waiting.interrupt, hpending]
  · simp [permit, htask, Waiting.interrupt, hpending]

theorem permit_cancel (a : Acquisition) : permit { a with task := a.task.cancel } = a.permit := by
  cases htask : a.task with
  | waiting w => exact permit_interrupt htask
  | _ => simp [permit, AcquireTask.cancel, htask]

theorem permit_expire (a : Acquisition) : permit { a with task := a.task.expire } = a.permit := by
  cases htask : a.task with
  | waiting w => exact permit_interrupt htask
  | _ => simp [permit, AcquireTask.expire, htask]

/-- Before its task is done nothing has been released for a call. -/
theorem Sound.released_eq_false (h : a.Sound)
    (hdone : ¬ (a.task = .absent ∨ a.task.isDone = true)) : a.released = false := by
  unfold Sound at h
  cases hcaller : a.caller with
  | raised e =>
    rw [hcaller] at h
    exact absurd h.2 hdone
  | released =>
    rw [hcaller] at h
    exact absurd (Or.inr (by rw [h.2]; rfl)) hdone
  | _ =>
    rw [hcaller] at h
    exact h.1

end Acquisition

namespace Sys

variable {capacity : ℕ} {s t u : Sys} {i : ℕ} {a : Acquisition} {e : Event}

/-- The permits taken. -/
def permits (s : Sys) : ℕ := s.acquisitions.countP Acquisition.permit

/-- Permits are free or taken for a call, and no call holds one it should not. -/
structure Good (capacity : ℕ) (s : Sys) : Prop where
  balance : s.value + s.permits = capacity
  sound : ∀ a ∈ s.acquisitions, a.Sound

theorem countP_set {xs : List Acquisition} (p : Acquisition → Bool) (a' : Acquisition)
    (h : xs[i]? = some a) :
    (xs.set i a').countP p + (if p a then 1 else 0) = xs.countP p + if p a' then 1 else 0 := by
  induction xs generalizing i with
  | nil => simp at h
  | cons x rest ih =>
    cases i with
    | zero =>
      obtain rfl : x = a := by simpa using h
      rw [List.set_cons_zero, List.countP_cons, List.countP_cons]
      omega
    | succ n =>
      have := ih (by simpa using h)
      rw [List.set_cons_succ, List.countP_cons, List.countP_cons]
      omega

/-- One call changes, and the value with it. -/
theorem Good.put (hs : s.Good capacity) (ha : s.acquisitions[i]? = some a) {a' : Acquisition}
    (hsound : a'.Sound) {value : ℕ} (waiters : List ℕ)
    (hvalue : value + (if a'.permit then 1 else 0) = s.value + if a.permit then 1 else 0) :
    Good capacity ⟨value, waiters, s.acquisitions.set i a'⟩ := by
  constructor
  · have hbalance := hs.balance
    have hcount := countP_set Acquisition.permit a' ha
    unfold permits at hbalance ⊢
    dsimp only
    omega
  · intro b hb
    rcases List.mem_or_eq_of_mem_set hb with hb | rfl
    · exact hs.sound b hb
    · exact hsound

theorem Good.sound_of_get (hs : s.Good capacity) (ha : s.acquisitions[i]? = some a) : a.Sound :=
  hs.sound a (List.mem_of_getElem? ha)

/-- A waiter whose future is pending may get a permit. -/
theorem future?_eq_some {f : Future} (h : s.future? i = some f) :
    ∃ a w, s.acquisitions[i]? = some a ∧ a.task = .waiting w ∧ w.future = f := by
  unfold future? at h
  split at h
  · rename_i w _ _ _ ha
    cases h
    exact ⟨_, w, ha, rfl, rfl⟩
  · cases h

theorem Good.wakeUpNext (hs : s.Good capacity) (hvalue : 0 < s.value)
    (h : s.wakeUpNext = some t) : t.Good capacity ∧ t.value + 1 = s.value := by
  unfold Sys.wakeUpNext at h
  split at h
  · cases h
  · rename_i j hfind
    have hpending : s.future? j = some .pending := by
      have := List.find?_some hfind
      simpa using this
    obtain ⟨a, w, ha, htask, hfuture⟩ := future?_eq_some hpending
    obtain ⟨_, ha', rfl⟩ := Option.map_eq_some_iff.mp h
    obtain rfl : a = _ := Option.some.inj (ha.symm.trans ha')
    have hsound : (grant a).Sound := by
      unfold grant
      rw [htask]
      refine (hs.sound_of_get ha).withTask ?_ ?_ fun _ => by simp
      · simp [htask, AcquireTask.isDone]
      · intro hbarred
        simp [htask, AcquireTask.Barred, hfuture] at hbarred
        simp [AcquireTask.Barred, hbarred]
    refine ⟨hs.put ha hsound s.waiters ?_, ?_⟩
    · simp [grant, htask, Acquisition.permit, hfuture]
      omega
    · show s.value - 1 + 1 = s.value
      omega

theorem Good.wakeUp (hs : s.Good capacity) (n : ℕ) (hn : n ≤ s.value) :
    (s.wakeUp n).Good capacity := by
  induction n generalizing s with
  | zero => exact hs
  | succ n ih =>
    unfold Sys.wakeUp
    cases hnext : s.wakeUpNext with
    | none => exact hs
    | some t =>
      obtain ⟨ht, hvalue⟩ := hs.wakeUpNext (by omega) hnext
      exact ih ht (by omega)

/-- The permit of a call is given back. -/
theorem Good.release (ht : Good capacity { t with value := t.value + 1 }) :
    t.release.Good capacity := by
  have hrelease : t.release =
      (Sys.wakeUpNext { t with value := t.value + 1 }).getD { t with value := t.value + 1 } := rfl
  rw [hrelease]
  cases hnext : Sys.wakeUpNext { t with value := t.value + 1 } with
  | none => exact ht
  | some u => exact (ht.wakeUpNext (Nat.succ_pos _) hnext).1

/-- The first turn of the acquire task. -/
theorem Good.runCreated (hs : s.Good capacity) (ha : s.acquisitions[i]? = some a)
    (htakes : a.cancelled = true → s.takes a = false) {requested : Bool}
    (htask : a.task = .created requested) (h : s.runTask i a = some t) : t.Good capacity := by
  have hsound := hs.sound_of_get ha
  have hopen : ¬ (a.task = .absent ∨ a.task.isDone = true) := by simp [htask, AcquireTask.isDone]
  have hpermit : a.permit = false := by simp [Acquisition.permit, htask]
  unfold Sys.runTask at h
  rw [htask] at h
  cases requested with
  | true =>
    cases h
    have hcancelled : Acquisition.Sound { a with task := .cancelled } :=
      hsound.withTask hopen (fun _ => trivial) fun _ => by simp
    exact hs.put ha hcancelled _ (by rw [hpermit]; simp [Acquisition.permit])
  | false =>
    simp only [Bool.false_eq_true, if_false] at h
    split at h
    · cases h
      have hwaiting : Acquisition.Sound { a with task := .waiting {} } := by
        refine hsound.withTask hopen (fun hbarred => ?_) fun _ => by simp
        simp [htask, AcquireTask.Barred] at hbarred
      exact hs.put ha hwaiting _ (by rw [hpermit]; simp [Acquisition.permit, Sys.put])
    · rename_i hlocked
      cases h
      have hvalue : 0 < s.value := by
        simp [locked] at hlocked
        omega
      have hacquired : Acquisition.Sound { a with task := .acquired } := by
        refine hsound.withTask hopen (fun hbarred => ?_) fun hcancelled => ?_
        · simp [htask, AcquireTask.Barred] at hbarred
        · have := htakes hcancelled
          simp [takes, htask, hlocked] at this
      refine hs.put ha hacquired _ ?_
      rw [hpermit]
      simp [Acquisition.permit, hsound.released_eq_false hopen]
      omega

/-- The turn of the acquire task after its future is done. -/
theorem Good.runWaiting (hs : s.Good capacity) (ha : s.acquisitions[i]? = some a)
    (htakes : a.cancelled = true → s.takes a = false) {w : Waiting}
    (htask : a.task = .waiting w) (h : s.runTask i a = some t) : t.Good capacity := by
  have hsound := hs.sound_of_get ha
  have hopen : ¬ (a.task = .absent ∨ a.task.isDone = true) := by simp [htask, AcquireTask.isDone]
  have hended : Acquisition.Sound { a with task := w.ended } ∧
      Acquisition.permit { a with task := w.ended } = false := by
    rcases w.ended_cases with hended | hended
    · rw [hended]
      exact ⟨hsound.withTask hopen (fun _ => trivial) fun _ => by simp, rfl⟩
    · rw [hended]
      exact ⟨hsound.withTask hopen (fun _ => trivial) fun _ => by simp, rfl⟩
  obtain ⟨hendSound, hendPermit⟩ := hended
  unfold Sys.runTask at h
  rw [htask] at h
  cases hfuture : w.future with
  | pending => simp [hfuture] at h
  | granted =>
    have hpermit : a.permit = true := by simp [Acquisition.permit, htask, hfuture]
    simp only [hfuture] at h
    split at h
    · -- the permit that came with the future is given back
      cases h
      refine Good.wakeUp (hs.put ha hendSound _ ?_) _ (Nat.le_refl _)
      simp [hpermit, hendPermit]
    · rename_i hmust
      cases h
      have hacquired : Acquisition.Sound { a with task := .acquired } := by
        refine hsound.withTask hopen (fun hbarred => ?_) fun hcancelled => ?_
        · simp [htask, AcquireTask.Barred, hfuture, hmust] at hbarred
        · have := htakes hcancelled
          simp [takes, htask, hfuture, hmust] at this
      refine Good.wakeUp (hs.put ha hacquired _ ?_) _ (Nat.le_refl _)
      rw [hpermit]
      simp [Acquisition.permit, hsound.released_eq_false hopen]
  | cancelled =>
    have hpermit : a.permit = false := by simp [Acquisition.permit, htask, hfuture]
    simp only [hfuture] at h
    cases h
    exact Good.wakeUp (hs.put ha hendSound _ (by simp [hpermit, hendPermit])) _ (Nat.le_refl _)

/-- A turn of the acquire task. -/
theorem Good.runTask (hs : s.Good capacity) (ha : s.acquisitions[i]? = some a)
    (htakes : a.cancelled = true → s.takes a = false) (h : s.runTask i a = some t) :
    t.Good capacity := by
  cases htask : a.task with
  | created requested => exact hs.runCreated ha htakes htask h
  | waiting w => exact hs.runWaiting ha htakes htask h
  | _ =>
    unfold Sys.runTask at h
    rw [htask] at h
    cases h

/-- Awaiting a finished acquire task returns if it has the permit, and raises if not. -/
theorem outcome_cases {task : AcquireTask} {caller : Caller} (h : outcome task = some caller) :
    task = .acquired ∧ caller = .returned ∨
      task.isDone = true ∧ task ≠ .acquired ∧ ∃ e, caller = .raised e := by
  cases task with
  | acquired => exact Or.inl ⟨rfl, (Option.some.inj h).symm⟩
  | timedOut => exact Or.inr ⟨rfl, by simp, _, (Option.some.inj h).symm⟩
  | cancelled => exact Or.inr ⟨rfl, by simp, _, (Option.some.inj h).symm⟩
  | _ => cases h

/-- A turn of the calling task. -/
theorem Good.resume (hs : s.Good capacity) (ha : s.acquisitions[i]? = some a)
    (h : s.resume i a = some t) : t.Good capacity := by
  have hsound := hs.sound_of_get ha
  unfold Acquisition.Sound at hsound
  -- the call ends, or goes on, with the permit it had
  have hkeep : ∀ a' : Acquisition, a'.Sound → a'.permit = a.permit → (s.put i a').Good capacity :=
    fun a' ha' hpermit => hs.put ha ha' _ (by rw [hpermit])
  have hraised : ∀ e, a.task.isDone = true → a.task ≠ .acquired →
      (s.put i { a with caller := .raised e }).Good capacity := by
    intro e hdone hne
    have hpermit : Acquisition.permit { a with caller := .raised e } = false := by
      cases htask : a.task <;> simp_all [Acquisition.permit, AcquireTask.isDone]
    exact hkeep _ ⟨hpermit, Or.inr hdone⟩ rfl
  have houtcome : a.released = false → ∀ caller, outcome a.task = some caller →
      (s.put i { a with caller := caller }).Good capacity := by
    intro hreleased caller hcaller
    rcases outcome_cases hcaller with ⟨hacquired, rfl⟩ | ⟨hdone, hne, e, rfl⟩
    · exact hkeep _ ⟨hreleased, hacquired⟩ rfl
    · exact hraised e hdone hne
  unfold Sys.resume at h
  cases hcaller : a.caller with
  | waiting =>
    rw [hcaller] at h hsound
    obtain ⟨hreleased, hcancelled⟩ := hsound
    dsimp only at h
    by_cases htoken : a.hasToken = true
    · rw [if_pos htoken] at h
      by_cases hinterrupted : a.cancelled = true
      · rw [if_pos hinterrupted] at h
        cases h
        by_cases hdone : a.task.isDone = true
        · rw [if_pos hdone]
          exact hraised _ hdone (hcancelled hinterrupted)
        · rw [if_neg hdone]
          exact hkeep _ ⟨hreleased, hinterrupted, hcancelled hinterrupted⟩ rfl
      · rw [if_neg hinterrupted] at h
        by_cases hfired : a.tokenDone = true
        · rw [if_pos hfired] at h
          split at h
          · rename_i htask
            cases h
            have hsound : Acquisition.Sound
                { a with caller := .raised .concurrencyCancelled, released := true } :=
              ⟨by simp [Acquisition.permit, htask], Or.inr (by simp [htask, AcquireTask.isDone])⟩
            refine Good.release (hs.put ha hsound _ ?_)
            simp [Acquisition.permit, htask, hreleased, Sys.put]
          · rename_i htask
            cases h
            exact hraised _ (by rw [htask]; rfl) (by simp [htask])
          · rename_i htask
            cases h
            exact hraised _ (by rw [htask]; rfl) (by simp [htask])
          · rename_i hacquired _ _
            cases h
            have hbarred := AcquireTask.barred_cancel hacquired
            exact hkeep _ ⟨hreleased, hbarred⟩ (Acquisition.permit_cancel a)
        · rw [if_neg hfired] at h
          obtain ⟨caller, hcaller', rfl⟩ := Option.map_eq_some_iff.mp h
          exact houtcome hreleased caller hcaller'
    · rw [if_neg htoken] at h
      by_cases hinterrupted : a.cancelled = true
      · rw [if_pos hinterrupted] at h
        split at h
        · rename_i hdone
          cases h
          exact hraised _ hdone (hcancelled hinterrupted)
        · cases h
      · rw [if_neg hinterrupted] at h
        obtain ⟨caller, hcaller', rfl⟩ := Option.map_eq_some_iff.mp h
        exact houtcome hreleased caller hcaller'
  | cancelling =>
    rw [hcaller] at h hsound
    obtain ⟨hreleased, hbarred⟩ := hsound
    dsimp only at h
    split at h
    · rename_i htask
      cases h
      exact hraised _ (by rw [htask]; rfl) (by simp [htask])
    · rename_i htask
      rw [htask] at hbarred
      exact hbarred.elim
    · rename_i htask
      cases h
      exact hraised _ (by rw [htask]; rfl) (by simp [htask])
    · cases h
  | finishing =>
    rw [hcaller] at h hsound
    dsimp only at h
    split at h
    · rename_i hdone
      cases h
      exact hraised _ hdone hsound.2.2
    · cases h
  | _ =>
    rw [hcaller] at h
    cases h

/-- The calling task is cancelled. -/
theorem Good.cancel (hs : s.Good capacity) (ha : s.acquisitions[i]? = some a)
    (hkept : a.task ≠ .acquired) (h : s.cancel i a = some t) : t.Good capacity := by
  have hsound := hs.sound_of_get ha
  unfold Acquisition.Sound at hsound
  have hkeep : ∀ a' : Acquisition, a'.Sound → a'.permit = a.permit → (s.put i a').Good capacity :=
    fun a' ha' hpermit => hs.put ha ha' _ (by rw [hpermit])
  have hne := AcquireTask.cancel_ne_acquired hkept
  have hbarred := AcquireTask.barred_cancel hkept
  unfold Sys.cancel at h
  split at h
  · rename_i hcaller
    rw [hcaller] at hsound
    split at h
    · cases h
      have hsound' : Acquisition.Sound { a with cancelled := true } := by
        simp [Acquisition.Sound, hcaller, hsound.1, hkept]
      exact hkeep _ hsound' rfl
    · cases h
      have hsound' : Acquisition.Sound { a with task := a.task.cancel } := by
        simp [Acquisition.Sound, hcaller, hsound.1, hne]
      exact hkeep _ hsound' (Acquisition.permit_cancel a)
  · rename_i hcaller
    rw [hcaller] at hsound
    split at h
    · cases h
      have hsound' : Acquisition.Sound { a with cancelled := true } := by
        simp [Acquisition.Sound, hcaller, hsound.1, hsound.2]
      exact hkeep _ hsound' rfl
    · cases h
      have hsound' : Acquisition.Sound { a with task := a.task.cancel } := by
        simp [Acquisition.Sound, hcaller, hsound.1, hbarred]
      exact hkeep _ hsound' (Acquisition.permit_cancel a)
  · rename_i hcaller
    rw [hcaller] at hsound
    cases h
    have hsound' : Acquisition.Sound { a with task := a.task.cancel } := by
      simp [Acquisition.Sound, hcaller, hsound.1, hsound.2.1, hne]
    exact hkeep _ hsound' (Acquisition.permit_cancel a)
  · cases h

/-- The timeout of the acquire task fires. -/
theorem Good.timeout (hs : s.Good capacity) (ha : s.acquisitions[i]? = some a) :
    (s.put i { a with task := a.task.expire }).Good capacity := by
  have hsound := hs.sound_of_get ha
  have hsound' : Acquisition.Sound { a with task := a.task.expire } := by
    by_cases hdone : a.task = .absent ∨ a.task.isDone = true
    · have hsame : a.task.expire = a.task := by
        cases htask : a.task <;> simp_all [AcquireTask.expire, AcquireTask.isDone]
      rw [hsame]
      exact hsound
    · refine hsound.withTask hdone AcquireTask.Barred.expire fun _ => ?_
      refine AcquireTask.expire_ne_acquired fun hacquired => hdone (Or.inr ?_)
      rw [hacquired]
      rfl
  exact hs.put ha hsound' _ (by rw [Acquisition.permit_expire])

theorem Good.begin (hs : s.Good capacity) (cancellation : Option Bool) (timeLeft : Bool) :
    Good capacity
      { s with acquisitions := s.acquisitions ++ [begun cancellation timeLeft] } := by
  have hbegun : (begun cancellation timeLeft).Sound ∧
      (begun cancellation timeLeft).permit = false := by
    unfold begun
    split_ifs
    · exact ⟨⟨rfl, Or.inl rfl⟩, rfl⟩
    · exact ⟨⟨rfl, Or.inl rfl⟩, rfl⟩
    · exact ⟨⟨rfl, fun h => by cases h⟩, rfl⟩
  constructor
  · have hbalance := hs.balance
    unfold permits at hbalance ⊢
    rw [List.countP_append, List.countP_singleton, hbegun.2]
    simpa using hbalance
  · intro a ha
    rcases List.mem_append.mp ha with ha | ha
    · exact hs.sound a ha
    · rw [List.mem_singleton.mp ha]
      exact hbegun.1

theorem Good.step (hs : s.Good capacity) (hundisturbed : s.Undisturbed e)
    (h : s.step e = some t) : t.Good capacity := by
  cases e with
  | begin cancellation timeLeft =>
    cases h
    exact hs.begin cancellation timeLeft
  | runTask i =>
    obtain ⟨a, ha, hturn⟩ := Option.bind_eq_some_iff.mp h
    exact hs.runTask ha (hundisturbed a ha) hturn
  | timeout i =>
    obtain ⟨a, ha, rfl⟩ := Option.map_eq_some_iff.mp h
    exact hs.timeout ha
  | token i =>
    obtain ⟨a, ha, hturn⟩ := Option.bind_eq_some_iff.mp h
    split at hturn
    · cases hturn
      have hsound := hs.sound_of_get ha
      have hsound' : Acquisition.Sound { a with tokenDone := true } := hsound
      exact hs.put ha hsound' _ rfl
    · cases hturn
  | cancel i =>
    obtain ⟨a, ha, hturn⟩ := Option.bind_eq_some_iff.mp h
    exact hs.cancel ha (hundisturbed a ha) hturn
  | resume i =>
    obtain ⟨a, ha, hturn⟩ := Option.bind_eq_some_iff.mp h
    exact hs.resume ha hturn
  | release i =>
    obtain ⟨a, ha, hturn⟩ := Option.bind_eq_some_iff.mp h
    split at hturn
    · rename_i hcaller
      cases hturn
      have hsound := hs.sound_of_get ha
      unfold Acquisition.Sound at hsound
      rw [hcaller] at hsound
      obtain ⟨hreleased, htask⟩ := hsound
      have hsound' : Acquisition.Sound { a with caller := .released, released := true } :=
        ⟨rfl, htask⟩
      refine Good.release (hs.put ha hsound' _ ?_)
      simp [Acquisition.permit, htask, hreleased, Sys.put]
    · cases hturn

theorem good_start (capacity : ℕ) : (start capacity).Good capacity where
  balance := by simp [start, permits]
  sound := by simp [start]

theorem Good.reaches (hs : s.Good capacity) (h : Reaches Undisturbed s t) : t.Good capacity := by
  induction h with
  | refl => exact hs
  | step _ hundisturbed hstep ih => exact ih.step hundisturbed hstep

/-- **Permits are conserved.**  In every run of undisturbed events, free permits and permits
taken add up; a call that has returned holds one, a call that has raised holds none; and so,
when no call is under way, the free permits and the calls between acquire and release add up
to the configured concurrency. -/
theorem permits_conserved {capacity : ℕ} {s : Sys} (h : Reaches Undisturbed (start capacity) s) :
    s.value + s.permits = capacity ∧
      (∀ a ∈ s.acquisitions, (a.caller = .returned → a.permit = true) ∧
        ∀ e, a.caller = .raised e → a.permit = false) ∧
      ((∀ a ∈ s.acquisitions, a.isPending = false) →
        s.value + s.acquisitions.countP (·.caller = .returned) = capacity) := by
  have hs := (good_start capacity).reaches h
  refine ⟨hs.balance, fun a ha => ⟨fun hcaller => ?_, fun e hcaller => ?_⟩, fun hidle => ?_⟩
  · have hsound := hs.sound a ha
    unfold Acquisition.Sound at hsound
    rw [hcaller] at hsound
    simp [Acquisition.permit, hsound.1, hsound.2]
  · have hsound := hs.sound a ha
    unfold Acquisition.Sound at hsound
    rw [hcaller] at hsound
    exact hsound.1
  · have hcount : s.acquisitions.countP (·.caller = .returned) = s.permits := by
      refine List.countP_congr fun a ha => ?_
      have hsound := hs.sound a ha
      have hpending := hidle a ha
      unfold Acquisition.Sound at hsound
      cases hcaller : a.caller with
      | returned =>
        rw [hcaller] at hsound
        simp [Acquisition.permit, hsound.1, hsound.2]
      | raised e =>
        rw [hcaller] at hsound
        simp [hsound.1]
      | released =>
        rw [hcaller] at hsound
        simp [Acquisition.permit, hsound.1, hsound.2]
      | _ => simp [Acquisition.isPending, hcaller] at hpending
    rw [hcount]
    exact hs.balance

/-- Every event is allowed. -/
def Any (_ : Sys) (_ : Event) : Prop := True

/-- Events, one after the other. -/
def run (s : Sys) : List Event → Option Sys
  | [] => some s
  | e :: rest => (s.step e).bind (run · rest)

/-- The events of a list are undisturbed, each where it happens. -/
def Calm (s : Sys) : List Event → Prop
  | [] => True
  | e :: rest => s.Undisturbed e ∧ ∀ t, s.step e = some t → Calm t rest

instance decidableUndisturbed (s : Sys) : (e : Event) → Decidable (s.Undisturbed e)
  | .cancel i => inferInstanceAs (Decidable (∀ a ∈ s.acquisitions[i]?, a.task ≠ .acquired))
  | .runTask i => inferInstanceAs
      (Decidable (∀ a ∈ s.acquisitions[i]?, a.cancelled = true → s.takes a = false))
  | .begin _ _ | .timeout _ | .token _ | .resume _ | .release _ => instDecidableTrue

instance decidableCalm : (s : Sys) → (events : List Event) → Decidable (s.Calm events)
  | _, [] => instDecidableTrue
  | s, e :: rest =>
    have : ∀ t : Sys, Decidable (t.Calm rest) := fun t => decidableCalm t rest
    have := decidableUndisturbed s e
    inferInstanceAs (Decidable (s.Undisturbed e ∧ ∀ t ∈ s.step e, t.Calm rest))

theorem Reaches.trans {P : Sys → Event → Prop} (h : Reaches P s t) (h' : Reaches P t u) :
    Reaches P s u := by
  induction h' with
  | refl => exact h
  | step _ hevent hstep ih => exact ih.step hevent hstep

theorem reaches_of_run {events : List Event} (h : s.run events = some t) : Reaches Any s t := by
  induction events generalizing s with
  | nil =>
    cases h
    exact .refl _
  | cons e rest ih =>
    obtain ⟨next, hstep, hrest⟩ := Option.bind_eq_some_iff.mp h
    exact ((Reaches.refl s).step trivial hstep).trans (ih hrest)

theorem reaches_of_calm {events : List Event} (h : s.run events = some t) (hcalm : s.Calm events) :
    Reaches Undisturbed s t := by
  induction events generalizing s with
  | nil =>
    cases h
    exact .refl _
  | cons e rest ih =>
    obtain ⟨next, hstep, hrest⟩ := Option.bind_eq_some_iff.mp h
    exact ((Reaches.refl s).step hcalm.1 hstep).trans (ih hrest (hcalm.2 next hstep))

/-- Two calls share one permit: the second lines up, its timeout fires, and the first gives the
permit back. -/
def calmEvents : List Event :=
  [.begin none true, .runTask 0, .resume 0, .begin (some false) true, .runTask 1, .timeout 1,
    .runTask 1, .resume 1, .release 0]

theorem permits_conserved_calm : ∃ s, (start 1).run calmEvents = some s ∧
    s.value + s.permits = 1 ∧ s.acquisitions.map (·.permit) = [false, false] := by
  have hrun : ∃ s, (start 1).run calmEvents = some s ∧
      s.acquisitions.map (·.permit) = [false, false] := ⟨_, rfl, rfl⟩
  have hcalm : (start 1).Calm calmEvents := by decide +kernel
  obtain ⟨s, hs, hpermits⟩ := hrun
  exact ⟨s, hs, (permits_conserved (reaches_of_calm hs hcalm)).1, hpermits⟩

/-! ## The two moments -/

/-- A call that has been cancelled, and whose acquire task has a permit that nobody will give
back. -/
def Leaked (a : Acquisition) : Prop :=
  a.task = .acquired ∧ a.released = false ∧ a.cancelled = true ∧
    (a.caller = .waiting ∨ a.caller = .finishing ∨ ∃ e, a.caller = .raised e)

/-- A call that leaks its permit is among the others. -/
def Leaks (s : Sys) (i : ℕ) : Prop := ∃ a, s.acquisitions[i]? = some a ∧ Leaked a

theorem Leaks.put {j : ℕ} {a' : Acquisition} (h : s.Leaks i) (hj : j = i → Leaked a')
    (value : ℕ) (waiters : List ℕ) : Leaks ⟨value, waiters, s.acquisitions.set j a'⟩ i := by
  obtain ⟨a, ha, hleaked⟩ := h
  by_cases hji : j = i
  · subst hji
    have hlength : j < s.acquisitions.length := (List.getElem?_eq_some_iff.mp ha).1
    exact ⟨a', by simp [hlength], hj rfl⟩
  · exact ⟨a, by simpa [List.getElem?_set_ne hji] using ha, hleaked⟩

theorem Leaks.wakeUpNext (h : s.Leaks i) (hnext : s.wakeUpNext = some t) : t.Leaks i := by
  unfold Sys.wakeUpNext at hnext
  split at hnext
  · cases hnext
  · rename_i j hfind
    have hpending : s.future? j = some .pending := by
      have := List.find?_some hfind
      simpa using this
    obtain ⟨b, w, hb, htask, -⟩ := future?_eq_some hpending
    obtain ⟨_, hb', rfl⟩ := Option.map_eq_some_iff.mp hnext
    obtain rfl : b = _ := Option.some.inj (hb.symm.trans hb')
    refine h.put (fun hji => ?_) _ s.waiters
    -- a waiter is not the call whose task is done
    obtain ⟨a, ha, hleaked⟩ := h
    rw [hji, ha] at hb
    cases hb
    rw [hleaked.1] at htask
    cases htask

theorem Leaks.wakeUp (h : s.Leaks i) (n : ℕ) : (s.wakeUp n).Leaks i := by
  induction n generalizing s with
  | zero => exact h
  | succ n ih =>
    unfold Sys.wakeUp
    cases hnext : s.wakeUpNext with
    | none => exact h
    | some t => exact ih (h.wakeUpNext hnext)

theorem Leaks.release (h : Leaks { t with value := t.value + 1 } i) : t.release.Leaks i := by
  have hrelease : t.release =
      (Sys.wakeUpNext { t with value := t.value + 1 }).getD { t with value := t.value + 1 } := rfl
  rw [hrelease]
  cases hnext : Sys.wakeUpNext { t with value := t.value + 1 } with
  | none => exact h
  | some u => exact h.wakeUpNext hnext

/-- A turn of the acquire task changes its own call, and wakes others up. -/
theorem runTask_shape {j : ℕ} {b : Acquisition} (h : s.runTask j b = some t) :
    b.task ≠ .acquired ∧ ∃ n value waiters b',
      t = wakeUp n ⟨value, waiters, s.acquisitions.set j b'⟩ := by
  unfold Sys.runTask at h
  split at h
  · rename_i htask
    refine ⟨by simp [htask], ?_⟩
    split at h
    · cases h
      exact ⟨0, _, _, _, rfl⟩
    · split at h
      · cases h
        exact ⟨0, _, _, _, rfl⟩
      · cases h
        exact ⟨0, _, _, _, rfl⟩
  · rename_i htask
    refine ⟨by simp [htask], ?_⟩
    split at h
    · cases h
    · split at h
      · cases h
        exact ⟨_, _, _, _, rfl⟩
      · cases h
        exact ⟨_, _, _, _, rfl⟩
    · cases h
      exact ⟨_, _, _, _, rfl⟩
  · cases h

/-- A turn of a calling task changes its own call, and may release a permit. -/
theorem resume_shape {j : ℕ} {b : Acquisition} (h : s.resume j b = some t) :
    ∃ b', t = s.put j b' ∨ t = (s.put j b').release := by
  have hmap : ∀ x : Option Caller, x.map (fun caller => s.put j { b with caller := caller }) =
      some t → ∃ b', t = s.put j b' ∨ t = (s.put j b').release := by
    intro x hx
    obtain ⟨caller, -, rfl⟩ := Option.map_eq_some_iff.mp hx
    exact ⟨_, Or.inl rfl⟩
  unfold Sys.resume at h
  split at h
  · split at h
    · split at h
      · cases h
        exact ⟨_, Or.inl rfl⟩
      · split at h
        · split at h
          · cases h
            exact ⟨_, Or.inr rfl⟩
          all_goals
            cases h
            exact ⟨_, Or.inl rfl⟩
        · exact hmap _ h
    · split at h
      · split at h
        · cases h
          exact ⟨_, Or.inl rfl⟩
        · cases h
      · exact hmap _ h
  · split at h
    · cases h
      exact ⟨_, Or.inl rfl⟩
    · cases h
      exact ⟨_, Or.inl rfl⟩
    · cases h
      exact ⟨_, Or.inl rfl⟩
    · cases h
  · split at h
    · cases h
      exact ⟨_, Or.inl rfl⟩
    · cases h
  · cases h

/-- What a call that leaks its permit still does: it raises. -/
theorem Leaked.resume {a : Acquisition} (hleaked : Leaked a) (h : s.resume i a = some t) :
    ∃ a', Leaked a' ∧ t = s.put i a' := by
  obtain ⟨htask, hreleased, hcancelled, hcaller⟩ := hleaked
  have hdone : a.task.isDone = true := by rw [htask]; rfl
  refine ⟨{ a with caller := .raised .taskCancelled },
    ⟨htask, hreleased, hcancelled, Or.inr (Or.inr ⟨_, rfl⟩)⟩, ?_⟩
  rcases hcaller with hcaller | hcaller | ⟨e, hcaller⟩
  · by_cases htoken : a.hasToken = true
    · simpa [Sys.resume, hcaller, htoken, hcancelled, hdone] using h.symm
    · simpa [Sys.resume, hcaller, htoken, hcancelled, hdone] using h.symm
  · simpa [Sys.resume, hcaller, hdone] using h.symm
  · simp [Sys.resume, hcaller] at h

theorem Leaked.cancel {a : Acquisition} (hleaked : Leaked a) (h : s.cancel i a = some t) :
    ∃ a', Leaked a' ∧ t = s.put i a' := by
  obtain ⟨htask, hreleased, hcancelled, hcaller⟩ := id hleaked
  have hdone : a.task.isDone = true := by rw [htask]; rfl
  have hcancel : a.task.cancel = .acquired := by rw [htask]; rfl
  unfold Sys.cancel at h
  split at h
  · rw [hdone, Bool.or_true, if_pos rfl] at h
    cases h
    exact ⟨{ a with cancelled := true }, ⟨htask, hreleased, rfl, hcaller⟩, rfl⟩
  · rename_i hcancelling
    rcases hcaller with hcaller | hcaller | ⟨e, hcaller⟩
    all_goals
      rw [hcancelling] at hcaller
      cases hcaller
  · cases h
    exact ⟨{ a with task := a.task.cancel }, ⟨hcancel, hreleased, hcancelled, hcaller⟩, rfl⟩
  · cases h

/-- Whatever happens next, the permit stays lost. -/
theorem Leaks.step (h : s.Leaks i) (hstep : s.step e = some t) : t.Leaks i := by
  obtain ⟨a, ha, hleaked⟩ := id h
  have hsame : ∀ {j : ℕ} {b : Acquisition}, s.acquisitions[j]? = some b → j = i → b = a := by
    rintro j b hb rfl
    exact Option.some.inj (hb.symm.trans ha)
  cases e with
  | begin cancellation timeLeft =>
    cases hstep
    have hlength : i < s.acquisitions.length := (List.getElem?_eq_some_iff.mp ha).1
    exact ⟨a, by simpa [List.getElem?_append_left hlength] using ha, hleaked⟩
  | runTask j =>
    obtain ⟨b, hb, hturn⟩ := Option.bind_eq_some_iff.mp hstep
    obtain ⟨hopen, n, value, waiters, b', rfl⟩ := runTask_shape hturn
    refine (h.put (fun hji => ?_) value waiters).wakeUp n
    exact absurd (hsame hb hji ▸ hleaked.1) hopen
  | timeout j =>
    obtain ⟨b, hb, rfl⟩ := Option.map_eq_some_iff.mp hstep
    refine h.put (fun hji => ?_) _ _
    obtain rfl := hsame hb hji
    exact ⟨by simp [hleaked.1, AcquireTask.expire], hleaked.2⟩
  | token j =>
    obtain ⟨b, hb, hturn⟩ := Option.bind_eq_some_iff.mp hstep
    split at hturn
    · cases hturn
      refine h.put (fun hji => ?_) _ _
      obtain rfl := hsame hb hji
      exact hleaked
    · cases hturn
  | cancel j =>
    obtain ⟨b, hb, hturn⟩ := Option.bind_eq_some_iff.mp hstep
    by_cases hji : j = i
    · obtain rfl := hsame hb hji
      subst hji
      obtain ⟨b', hb', rfl⟩ := hleaked.cancel hturn
      exact h.put (fun _ => hb') _ _
    · have hshape : ∃ b', t = s.put j b' := by
        unfold Sys.cancel at hturn
        split at hturn
        · split at hturn <;> exact ⟨_, (Option.some.inj hturn).symm⟩
        · split at hturn <;> exact ⟨_, (Option.some.inj hturn).symm⟩
        · exact ⟨_, (Option.some.inj hturn).symm⟩
        · cases hturn
      obtain ⟨b', rfl⟩ := hshape
      exact h.put (fun hji' => absurd hji' hji) _ _
  | resume j =>
    obtain ⟨b, hb, hturn⟩ := Option.bind_eq_some_iff.mp hstep
    by_cases hji : j = i
    · obtain rfl := hsame hb hji
      subst hji
      obtain ⟨b', hb', rfl⟩ := hleaked.resume hturn
      exact h.put (fun _ => hb') _ _
    · obtain ⟨b', rfl | rfl⟩ := resume_shape hturn
      · exact h.put (fun hji' => absurd hji' hji) _ _
      · exact Leaks.release (h.put (fun hji' => absurd hji' hji) _ _)
  | release j =>
    obtain ⟨b, hb, hturn⟩ := Option.bind_eq_some_iff.mp hstep
    split at hturn
    · rename_i hreturned
      cases hturn
      refine Leaks.release (h.put (fun hji => ?_) _ _)
      obtain rfl := hsame hb hji
      rcases hleaked.2.2.2 with hcaller | hcaller | ⟨e, hcaller⟩
      all_goals
        rw [hreturned] at hcaller
        cases hcaller
    · cases hturn

theorem Leaks.reaches (h : s.Leaks i) (ht : Reaches Any s t) : t.Leaks i := by
  induction ht with
  | refl => exact h
  | step _ _ hstep ih => exact ih.step hstep

/-- A caller is cancelled when its acquire task has the permit. -/
theorem leaks_of_cancel {a : Acquisition} (ha : s.acquisitions[i]? = some a) (hsound : a.Sound)
    (htask : a.task = .acquired) (h : s.cancel i a = some t) : t.Leaks i := by
  have hdone : a.task.isDone = true := by rw [htask]; rfl
  have hlength : i < s.acquisitions.length := (List.getElem?_eq_some_iff.mp ha).1
  unfold Acquisition.Sound at hsound
  unfold Sys.cancel at h
  split at h
  · rename_i hcaller
    rw [hcaller] at hsound
    rw [hdone, Bool.or_true, if_pos rfl] at h
    cases h
    exact ⟨{ a with cancelled := true }, by simp [Sys.put, hlength],
      htask, hsound.1, rfl, Or.inl hcaller⟩
  · rename_i hcaller
    rw [hcaller, htask] at hsound
    exact hsound.2.elim
  · rename_i hcaller
    rw [hcaller] at hsound
    exact absurd htask hsound.2.2
  · cases h

/-- The permit comes when the caller has been cancelled. -/
theorem leaks_of_takes {a : Acquisition} (ha : s.acquisitions[i]? = some a) (hsound : a.Sound)
    (hcancelled : a.cancelled = true) (htakes : s.takes a = true) (h : s.runTask i a = some t) :
    t.Leaks i := by
  have hlength : i < s.acquisitions.length := (List.getElem?_eq_some_iff.mp ha).1
  have hopen : ¬ (a.task = .absent ∨ a.task.isDone = true) := by
    intro hdone
    cases htask : a.task <;> simp_all [takes, AcquireTask.isDone]
  have hcaller : a.caller = .waiting ∨ a.caller = .finishing := by
    unfold Acquisition.Sound at hsound
    cases hcaller : a.caller with
    | waiting => exact Or.inl rfl
    | finishing => exact Or.inr rfl
    | cancelling =>
      rw [hcaller] at hsound
      cases htask : a.task <;> simp_all [takes, AcquireTask.Barred]
    | returned =>
      rw [hcaller] at hsound
      simp [hsound.2, AcquireTask.isDone] at hopen
    | raised e =>
      rw [hcaller] at hsound
      exact absurd hsound.2 hopen
    | released =>
      rw [hcaller] at hsound
      simp [hsound.2, AcquireTask.isDone] at hopen
  have hleaks : ∀ value waiters,
      Leaks ⟨value, waiters, s.acquisitions.set i { a with task := .acquired }⟩ i := by
    intro value waiters
    exact ⟨{ a with task := .acquired }, by simp [hlength], rfl, hsound.released_eq_false hopen,
      hcancelled, hcaller.imp_right Or.inl⟩
  cases htask : a.task with
  | created requested =>
    simp only [takes, htask, Bool.and_eq_true, Bool.not_eq_true'] at htakes
    simp only [Sys.runTask, htask, htakes.1, htakes.2] at h
    cases h
    exact hleaks _ _
  | waiting w =>
    simp only [takes, htask, Bool.and_eq_true, Bool.not_eq_true', decide_eq_true_eq] at htakes
    simp only [Sys.runTask, htask, htakes.1, htakes.2] at h
    cases h
    exact Leaks.wakeUp (hleaks _ _) _
  | _ => simp [takes, htask] at htakes

/-- **An event at one of the two moments loses a permit for good.** -/
theorem leaked_for_good {capacity : ℕ} (h : Reaches Undisturbed (start capacity) s)
    (hstep : s.step e = some t) (hdisturbed : ¬ s.Undisturbed e) :
    ∃ i, ∀ u, Reaches Any t u → u.Leaks i := by
  have hs := (good_start capacity).reaches h
  cases e with
  | cancel i =>
    obtain ⟨a, ha, hturn⟩ := Option.bind_eq_some_iff.mp hstep
    have htask : a.task = .acquired := by
      by_contra hne
      exact hdisturbed fun b hb => Option.some.inj (ha.symm.trans hb) ▸ hne
    exact ⟨i, fun u hu => (leaks_of_cancel ha (hs.sound_of_get ha) htask hturn).reaches hu⟩
  | runTask i =>
    obtain ⟨a, ha, hturn⟩ := Option.bind_eq_some_iff.mp hstep
    have htakes : a.cancelled = true ∧ s.takes a = true := by
      by_contra hnot
      refine hdisturbed fun b hb hcancelled => ?_
      obtain rfl := Option.some.inj (ha.symm.trans hb)
      simpa [hcancelled] using hnot
    exact ⟨i, fun u hu =>
      (leaks_of_takes ha (hs.sound_of_get ha) htakes.1 htakes.2 hturn).reaches hu⟩
  | _ => exact absurd trivial hdisturbed

/-- A caller is cancelled in `asyncio.wait`, and the permit comes afterwards. -/
def leakingEvents : List Event :=
  [.begin (some false) true, .runTask 0, .resume 0, .begin (some false) true, .runTask 1,
    .cancel 1, .resume 1, .release 0, .runTask 1, .resume 1]

/-- Nothing is under way any more, nobody holds a permit, and there is none left: the call that
was cancelled has taken it with it. -/
theorem permit_lost : ∃ s, Reaches Any (start 1) s ∧ (∀ a ∈ s.acquisitions, a.isPending = false) ∧
    s.value + s.acquisitions.countP (·.caller = .returned) = 0 ∧
    ∃ a ∈ s.acquisitions, a.caller = .raised .taskCancelled ∧ a.permit = true := by
  obtain ⟨s, hs, hfacts⟩ : ∃ s, (start 1).run leakingEvents = some s ∧
      (∀ a ∈ s.acquisitions, a.isPending = false) ∧
      s.value + s.acquisitions.countP (·.caller = .returned) = 0 ∧
      ∃ a ∈ s.acquisitions, a.caller = .raised .taskCancelled ∧ a.permit = true := by
    refine ⟨_, rfl, ?_⟩
    decide +kernel
  exact ⟨s, reaches_of_run hs, hfacts⟩

end Sys

end Permits

end AegisPlatform
