import Mathlib.Data.Rat.Defs
import Mathlib.Algebra.Order.Ring.Unbundled.Rat
import Mathlib.Tactic.Linarith

/-!
# The circuit breaker of a model

`CircuitBreaker` and the executions of `_try_model` that share one.

* `CircuitBreaker.acquire`, `succeed`, `fail`, `abandon`, `releaseProbe` — its calls.
* `CircuitBreaker.enter`, `leave` — what one execution does to it at either end.
* `Sharing` — the breaker with the executions in flight; `Sharing.step` is one call.
* `Sharing.singleProbe` — one probe at a time, provided late executions keep away from it.

Clock readings are seconds, as rationals.
-/

namespace AegisPlatform

inductive CircuitState where
  | closed
  | «open»
  | halfOpen
  deriving DecidableEq, Repr

structure CircuitOpenError where
  message : String
  deriving DecidableEq, Repr

structure CircuitBreaker where
  failureThreshold : ℤ
  recoverySeconds : ℚ
  failures : ℤ
  openedAt : Option ℚ
  halfOpenInflight : Bool
  threshold_pos : 1 ≤ failureThreshold
  recovery_pos : 0 < recoverySeconds
  deriving DecidableEq

namespace CircuitBreaker

/-- A new breaker.  `none` stands for the `ValueError` of its bounds. -/
def create (failureThreshold : ℤ) (recoverySeconds : ℚ) : Option CircuitBreaker :=
  if h : 1 ≤ failureThreshold ∧ 0 < recoverySeconds then
    some ⟨failureThreshold, recoverySeconds, 0, none, false, h.1, h.2⟩
  else none

def state (c : CircuitBreaker) (clock : ℚ) : CircuitState :=
  match c.openedAt with
  | none => .closed
  | some openedAt => if c.recoverySeconds ≤ clock - openedAt then .halfOpen else .open

def acquire (c : CircuitBreaker) (clock : ℚ) : Except CircuitOpenError CircuitBreaker :=
  match c.state clock with
  | .open => .error ⟨"provider circuit is open"⟩
  | .halfOpen =>
    if c.halfOpenInflight then .error ⟨"provider circuit half-open probe is busy"⟩
    else .ok { c with halfOpenInflight := true }
  | .closed => .ok c

def succeed (c : CircuitBreaker) : CircuitBreaker :=
  { c with failures := 0, openedAt := none, halfOpenInflight := false }

def fail (c : CircuitBreaker) (clock : ℚ) : CircuitBreaker :=
  { c with
    halfOpenInflight := false
    failures := c.failures + 1
    openedAt := if c.failureThreshold ≤ c.failures + 1 then some clock else c.openedAt }

def abandon (c : CircuitBreaker) : CircuitBreaker := { c with halfOpenInflight := false }

def releaseProbe (c : CircuitBreaker) : CircuitBreaker := c.abandon

/-! ## One execution -/

/-- How `_try_model` begins: it acquires the circuit, then reads its state again, at a clock
that may have moved on, to learn whether it holds the probe. -/
def enter (c : CircuitBreaker) (clock again : ℚ) : Except CircuitOpenError (CircuitBreaker × Bool) :=
  match c.acquire clock with
  | .error e => .error e
  | .ok c' => .ok (c', decide (c'.state again = .halfOpen))

/-- How `_try_model` ends.  `raised` is every exception that escapes it, a cancellation
among them. -/
inductive Ending where
  | succeed
  | fail
  | abandon
  | raised
  deriving DecidableEq, Repr

/-- What the end of an execution does to the breaker.  On success the `finally` clause
runs after `succeed`, else before `fail` and `abandon`. -/
def leave (c : CircuitBreaker) (probeAcquired : Bool) (ending : Ending) (clock : ℚ) :
    CircuitBreaker :=
  let release (c : CircuitBreaker) := if probeAcquired then c.releaseProbe else c
  match ending with
  | .succeed => release c.succeed
  | .fail => (release c).fail clock
  | .abandon => (release c).abandon
  | .raised => release c

variable {c c' : CircuitBreaker} {clock again : ℚ}

/-- A circuit is acquired while closed, and nothing changes, or while half open and free,
and the probe is taken. -/
theorem acquire_cases (h : c.acquire clock = .ok c') :
    c.state clock = .closed ∧ c' = c ∨
      c.state clock = .halfOpen ∧ c.halfOpenInflight = false ∧
        c' = { c with halfOpenInflight := true } := by
  unfold acquire at h
  cases hstate : c.state clock with
  | «open» => rw [hstate] at h; cases h
  | closed =>
    rw [hstate] at h
    cases h
    exact Or.inl ⟨rfl, rfl⟩
  | halfOpen =>
    rw [hstate] at h
    dsimp only at h
    split at h
    · cases h
    · rename_i hfree
      cases h
      exact Or.inr ⟨rfl, by simpa using hfree, rfl⟩

theorem state_closed_iff : c.state clock = .closed ↔ c.openedAt = none := by
  unfold state
  cases c.openedAt with
  | none => simp
  | some openedAt =>
    dsimp only
    split <;> simp

/-- A circuit that is half open stays so until something is done to it. -/
theorem state_halfOpen_mono (h : c.state clock = .halfOpen) (hle : clock ≤ again) :
    c.state again = .halfOpen := by
  unfold state at h ⊢
  cases hopened : c.openedAt with
  | none => rw [hopened] at h; cases h
  | some openedAt =>
    rw [hopened] at h
    dsimp only at h ⊢
    split at h
    · rename_i hrecovered
      rw [if_pos (by linarith)]
    · cases h

/-- **The second reading is right**: an execution believes to hold the probe exactly when
it acquired the circuit while it was half open. -/
theorem enter_cases {probeAcquired : Bool} (h : c.enter clock again = .ok (c', probeAcquired))
    (hle : clock ≤ again) :
    c.state clock = .closed ∧ c' = c ∧ probeAcquired = false ∨
      c.state clock = .halfOpen ∧ c.halfOpenInflight = false ∧
        c' = { c with halfOpenInflight := true } ∧ probeAcquired = true := by
  unfold enter at h
  cases hacquire : c.acquire clock with
  | error e => rw [hacquire] at h; cases h
  | ok acquired =>
    rw [hacquire] at h
    cases h
    rcases acquire_cases hacquire with ⟨hclosed, rfl⟩ | ⟨hhalf, hfree, rfl⟩
    · refine Or.inl ⟨hclosed, rfl, ?_⟩
      rw [state_closed_iff] at hclosed
      simp [state, hclosed]
    · refine Or.inr ⟨hhalf, hfree, rfl, ?_⟩
      have hagain : c.state again = .halfOpen := state_halfOpen_mono hhalf hle
      exact decide_eq_true hagain

/-- An execution that does not hold the probe and raises leaves the breaker alone. -/
@[simp]
theorem leave_raised (c : CircuitBreaker) (clock : ℚ) : c.leave false .raised clock = c := rfl

end CircuitBreaker

/-! ## Executions sharing a breaker -/

/-- An execution in flight.  `acquiredIn` is the state it acquired the circuit in. -/
structure Execution where
  acquiredIn : CircuitState
  probeAcquired : Bool
  deriving DecidableEq

/-- A breaker, the clock, and the executions between their `acquire` and their end. -/
structure Sharing where
  circuit : CircuitBreaker
  clock : ℚ
  inFlight : List Execution
  deriving DecidableEq

namespace Sharing

open CircuitBreaker

/-- What can happen: an execution enters, or the one at a place ends. -/
inductive Call where
  | enter (clock again : ℚ)
  | leave (place : ℕ) (ending : Ending) (clock : ℚ)

/-- No execution yet. -/
def start (c : CircuitBreaker) (clock : ℚ) : Sharing := ⟨c, clock, []⟩

/-- One call.  There is none at an earlier clock, and none of an execution that is not in
flight; a refused execution is never in flight. -/
def step (s : Sharing) : Call → Option Sharing
  | .enter clock again =>
    if s.clock ≤ clock ∧ clock ≤ again then
      match s.circuit.enter clock again with
      | .error _ => some { s with clock := again }
      | .ok (c, probeAcquired) =>
        some ⟨c, again, s.inFlight ++ [⟨s.circuit.state clock, probeAcquired⟩]⟩
    else none
  | .leave place ending clock =>
    if s.clock ≤ clock then
      (s.inFlight[place]?).map fun execution =>
        ⟨s.circuit.leave execution.probeAcquired ending clock, clock, s.inFlight.eraseIdx place⟩
    else none

/-- How many executions in flight acquired the circuit while it was half open. -/
def probes (s : Sharing) : ℕ := s.inFlight.countP (·.acquiredIn = .halfOpen)

/-- A call is *timely* unless it ends an execution that acquired the circuit while it was
closed, with `succeed`, `fail` or `abandon`, and a probe is in flight. -/
def Timely (s : Sharing) : Call → Prop
  | .enter _ _ => True
  | .leave place ending _ =>
    ∀ execution, s.inFlight[place]? = some execution → execution.acquiredIn = .closed →
      ending = .raised ∨ s.probes = 0

/-- What runs reach whose calls all meet a condition. -/
inductive Reaches (P : Sharing → Call → Prop) : Sharing → Sharing → Prop
  | refl (s : Sharing) : Reaches P s s
  | step {s t u : Sharing} {call : Call} :
      Reaches P s t → P t call → t.step call = some u → Reaches P s u

/-- The probe slot tells the truth: who holds the probe acquired the circuit half open, no
two do, and the slot is taken while one does. -/
structure Exclusive (s : Sharing) : Prop where
  holder : ∀ execution ∈ s.inFlight,
    execution.acquiredIn = .closed ∧ execution.probeAcquired = false ∨
      execution.acquiredIn = .halfOpen ∧ execution.probeAcquired = true
  single : s.probes ≤ 1
  taken : s.probes = 1 → s.circuit.halfOpenInflight = true

theorem exclusive_start (c : CircuitBreaker) (clock : ℚ) : (start c clock).Exclusive where
  holder := by simp [start]
  single := by simp [start, probes]
  taken := by simp [start, probes]

variable {s t u : Sharing} {call : Call}

/-- What a call can do, guards included. -/
theorem step_cases (h : s.step call = some t) :
    (∃ clock again, call = .enter clock again ∧ t = { s with clock := again }) ∨
    (∃ clock again c probeAcquired, call = .enter clock again ∧ clock ≤ again ∧
      s.circuit.enter clock again = .ok (c, probeAcquired) ∧
      t = ⟨c, again, s.inFlight ++ [⟨s.circuit.state clock, probeAcquired⟩]⟩) ∨
    (∃ place ending clock execution, call = .leave place ending clock ∧
      s.inFlight[place]? = some execution ∧
      t = ⟨s.circuit.leave execution.probeAcquired ending clock, clock,
        s.inFlight.eraseIdx place⟩) := by
  cases call with
  | enter clock again =>
    unfold step at h
    dsimp only at h
    split at h
    · rename_i htime
      cases henter : s.circuit.enter clock again with
      | error e =>
        rw [henter] at h
        cases h
        exact Or.inl ⟨clock, again, rfl, rfl⟩
      | ok entered =>
        rw [henter] at h
        cases h
        exact Or.inr (Or.inl ⟨clock, again, _, _, rfl, htime.2, henter, rfl⟩)
    · cases h
  | leave place ending clock =>
    unfold step at h
    dsimp only at h
    split at h
    · obtain ⟨execution, hplace, rfl⟩ := Option.map_eq_some_iff.mp h
      exact Or.inr (Or.inr ⟨place, ending, clock, execution, rfl, hplace, rfl⟩)
    · cases h

/-- Taking an execution out takes its probe out. -/
theorem countP_eraseIdx {xs : List Execution} {place : ℕ} {execution : Execution}
    (p : Execution → Bool) (h : xs[place]? = some execution) :
    (xs.eraseIdx place).countP p + (if p execution then 1 else 0) = xs.countP p := by
  induction xs generalizing place with
  | nil => simp at h
  | cons x rest ih =>
    cases place with
    | zero =>
      obtain rfl : x = execution := by simpa using h
      rw [List.eraseIdx_cons_zero, List.countP_cons]
    | succ n =>
      have := ih (by simpa using h)
      rw [List.eraseIdx_cons_succ, List.countP_cons, List.countP_cons]
      omega

theorem Exclusive.step (hs : s.Exclusive) (htimely : s.Timely call) (h : s.step call = some t) :
    t.Exclusive := by
  rcases step_cases h with ⟨clock, again, -, rfl⟩ |
    ⟨clock, again, c, probeAcquired, -, hle, henter, rfl⟩ |
    ⟨place, ending, clock, execution, rfl, hplace, rfl⟩
  · exact ⟨hs.holder, hs.single, hs.taken⟩
  · rcases enter_cases henter hle with ⟨hclosed, rfl, rfl⟩ | ⟨hhalf, hfree, rfl, rfl⟩
    · have hprobes : probes ⟨s.circuit, again, s.inFlight ++ [⟨s.circuit.state clock, false⟩]⟩ =
          s.probes := by
        simp [probes, hclosed]
      refine ⟨fun execution hmem => ?_, hprobes ▸ hs.single, fun hone => hs.taken (hprobes ▸ hone)⟩
      rcases List.mem_append.mp hmem with hmem | hmem
      · exact hs.holder execution hmem
      · rw [List.mem_singleton.mp hmem]
        exact Or.inl ⟨hclosed, rfl⟩
    · -- the slot was free, so no probe was in flight
      have hnone : s.probes = 0 := by
        have hsingle := hs.single
        have htaken : s.probes ≠ 1 := fun hone => by simp [hs.taken hone] at hfree
        omega
      refine ⟨fun execution hmem => ?_, ?_, fun _ => rfl⟩
      · rcases List.mem_append.mp hmem with hmem | hmem
        · exact hs.holder execution hmem
        · rw [List.mem_singleton.mp hmem]
          exact Or.inr ⟨hhalf, rfl⟩
      · unfold probes at hnone
        show (s.inFlight ++ _).countP _ ≤ 1
        rw [List.countP_append, hnone]
        simp [hhalf]
  · have hcount := countP_eraseIdx (·.acquiredIn = .halfOpen) hplace
    refine ⟨fun e hmem => hs.holder e (List.mem_of_mem_eraseIdx hmem), ?_, ?_⟩
    · have hsingle := hs.single
      unfold probes at hsingle
      show (s.inFlight.eraseIdx place).countP _ ≤ 1
      omega
    · intro hone
      have hone' : (s.inFlight.eraseIdx place).countP (·.acquiredIn = .halfOpen) = 1 := hone
      have hsingle := hs.single
      unfold probes at hsingle
      rcases hs.holder execution (List.mem_of_getElem? hplace) with ⟨hclosed, hfalse⟩ | ⟨hhalf, -⟩
      · -- a probe is left in flight, so a timely end leaves the slot alone
        have hprobes : s.probes = 1 := by
          simp only [hclosed] at hcount
          unfold probes
          simp at hcount
          omega
        rcases htimely execution hplace hclosed with rfl | hzero
        · rw [hfalse]
          exact hs.taken hprobes
        · omega
      · -- the only probe has ended
        rw [hhalf] at hcount
        simp at hcount hone' hsingle
        omega

theorem Exclusive.reaches (hs : s.Exclusive) (h : Reaches Timely s t) : t.Exclusive := by
  induction h with
  | refl => exact hs
  | step _ htimely hstep ih => exact ih.step htimely hstep

/-- **A single half-open probe.**  In every run of timely calls, no two executions in
flight acquired the circuit while it was half open. -/
theorem singleProbe {c : CircuitBreaker} {clock : ℚ} {s : Sharing}
    (h : Reaches Timely (start c clock) s) : s.probes ≤ 1 :=
  ((exclusive_start c clock).reaches h).single

/-- A breaker that opens at the first failure. -/
def touchy : CircuitBreaker := ⟨1, 30, 0, none, false, by decide, by norm_num⟩

/-- An execution fails, the circuit opens, recovers, and takes a probe. -/
theorem singleProbe_recovering :
    ∃ s, Reaches Timely (start touchy 0) s ∧ s.probes ≤ 1 ∧ s.inFlight ≠ [] := by
  let entered : Sharing := ⟨touchy, 0, [⟨.closed, false⟩]⟩
  let probing : Sharing :=
    ⟨{ touchy.fail 5 with halfOpenInflight := true }, 40, [⟨.halfOpen, true⟩]⟩
  have henter : (start touchy 0).step (.enter 0 0) = some entered := by decide +kernel
  have hleave : entered.step (.leave 0 .fail 5) = some ⟨touchy.fail 5, 5, []⟩ := by decide +kernel
  have hprobe : step ⟨touchy.fail 5, 5, []⟩ (.enter 40 40) = some probing := by decide +kernel
  have hreaches : Reaches Timely (start touchy 0) probing := by
    refine .step (.step (.step (.refl _) ?_ henter) ?_ hleave) ?_ hprobe
    · trivial
    · exact fun _ _ _ => Or.inr rfl
    · trivial
  exact ⟨probing, hreaches, singleProbe hreaches, by simp [probing]⟩

/-! ## Late executions -/

/-- Every call is allowed. -/
def Any (_ : Sharing) (_ : Call) : Prop := True

/-- Calls, one after the other. -/
def run (s : Sharing) : List Call → Option Sharing
  | [] => some s
  | call :: rest => (s.step call).bind (run · rest)

theorem Reaches.trans {P : Sharing → Call → Prop} (h : Reaches P s t) (h' : Reaches P t u) :
    Reaches P s u := by
  induction h' with
  | refl => exact h
  | step _ hcall hstep ih => exact ih.step hcall hstep

theorem reaches_of_run {calls : List Call} (h : s.run calls = some t) : Reaches Any s t := by
  induction calls generalizing s with
  | nil =>
    cases h
    exact .refl _
  | cons call rest ih =>
    obtain ⟨next, hstep, hrest⟩ := Option.bind_eq_some_iff.mp h
    exact ((Reaches.refl s).step trivial hstep).trans (ih hrest)

/-- A circuit that has opened, and whose slot is free, admits a probe once the recovery
time is over. -/
theorem admits_probe {openedAt : ℚ} (hfree : s.circuit.halfOpenInflight = false)
    (hopened : s.circuit.openedAt = some openedAt) :
    ∃ t, Reaches Any s t ∧ t.probes = s.probes + 1 := by
  have hstate : ∀ at', openedAt + s.circuit.recoverySeconds ≤ at' →
      s.circuit.state at' = .halfOpen := by
    intro at' hle
    rw [CircuitBreaker.state, hopened]
    exact if_pos (by linarith)
  let at' := max s.clock (openedAt + s.circuit.recoverySeconds)
  have hhalf : s.circuit.state at' = .halfOpen := hstate at' (le_max_right _ _)
  have henter : s.circuit.enter at' at' =
      .ok ({ s.circuit with halfOpenInflight := true }, true) := by
    have hacquire : s.circuit.acquire at' = .ok { s.circuit with halfOpenInflight := true } := by
      simp [acquire, hhalf, hfree]
    simp only [enter, hacquire]
    have hagain : state { s.circuit with halfOpenInflight := true } at' = .halfOpen := hhalf
    rw [hagain]
    rfl
  let next : Sharing :=
    ⟨{ s.circuit with halfOpenInflight := true }, at', s.inFlight ++ [⟨.halfOpen, true⟩]⟩
  have hrun : s.run [.enter at' at'] = some next := by
    have htime : s.clock ≤ at' := le_max_left _ _
    simp [run, Sharing.step, henter, hhalf, htime, next]
  refine ⟨next, reaches_of_run hrun, ?_⟩
  simp [next, probes]

/-- Whatever the circuit is like, so long as its slot is free there is a way to one more
probe: let executions fail until it opens, and wait. -/
theorem admits_probe_of_free (hfree : s.circuit.halfOpenInflight = false) :
    ∃ t, Reaches Any s t ∧ t.probes = s.probes + 1 := by
  generalize hleft : (s.circuit.failureThreshold - s.circuit.failures).toNat = left
  induction left using Nat.strong_induction_on generalizing s with
  | _ left ih =>
  cases hopened : s.circuit.openedAt with
  | some openedAt => exact admits_probe hfree hopened
  | none =>
    -- one more execution fails
    let next : Sharing := ⟨s.circuit.fail s.clock, s.clock, s.inFlight⟩
    have hrun : s.run [.enter s.clock s.clock, .leave s.inFlight.length .fail s.clock] =
        some next := by
      have hclosed : s.circuit.state s.clock = .closed := state_closed_iff.mpr hopened
      have henter : s.circuit.enter s.clock s.clock = .ok (s.circuit, false) := by
        simp [enter, acquire, hclosed]
      simp [run, Sharing.step, henter, next, leave, List.eraseIdx_append_of_length_le]
    have hnext : next.probes = s.probes := rfl
    have hreaches : Reaches Any s next := reaches_of_run hrun
    by_cases hthreshold : s.circuit.failureThreshold ≤ s.circuit.failures + 1
    · have hsome : next.circuit.openedAt = some s.clock := if_pos hthreshold
      obtain ⟨t, ht, hprobes⟩ : ∃ t, Reaches Any next t ∧ t.probes = next.probes + 1 :=
        admits_probe rfl hsome
      exact ⟨t, hreaches.trans ht, hprobes⟩
    · have hfewer : (next.circuit.failureThreshold - next.circuit.failures).toNat < left := by
        show (s.circuit.failureThreshold - (s.circuit.failures + 1)).toNat < left
        omega
      obtain ⟨t, ht, hprobes⟩ : ∃ t, Reaches Any next t ∧ t.probes = next.probes + 1 :=
        ih _ hfewer rfl rfl
      exact ⟨t, hreaches.trans ht, hprobes⟩

/-- **One untimely call is enough.**  After the first one there is a run to a second probe. -/
theorem second_probe_of_untimely {c : CircuitBreaker} {clock : ℚ}
    (h : Reaches Timely (start c clock) s) (hstep : s.step call = some t)
    (huntimely : ¬ s.Timely call) : ∃ u, Reaches Any t u ∧ u.probes = 2 := by
  have hs := (exclusive_start c clock).reaches h
  rcases step_cases hstep with ⟨clock, again, rfl, -⟩ | ⟨clock, again, -, -, rfl, -⟩ |
    ⟨place, ending, clock, execution, rfl, hplace, rfl⟩
  · exact absurd trivial huntimely
  · exact absurd trivial huntimely
  · unfold Timely at huntimely
    push Not at huntimely
    obtain ⟨e, he, hclosed, hending, hprobes⟩ := huntimely
    obtain rfl : execution = e := Option.some.inj (hplace.symm.trans he)
    have hcount := countP_eraseIdx (·.acquiredIn = .halfOpen) hplace
    have hsingle := hs.single
    have hfree : (s.circuit.leave execution.probeAcquired ending clock).halfOpenInflight = false := by
      cases ending with
      | succeed => cases execution.probeAcquired <;> rfl
      | fail => rfl
      | abandon => rfl
      | raised => exact absurd rfl hending
    let next : Sharing := ⟨s.circuit.leave execution.probeAcquired ending clock, clock,
      s.inFlight.eraseIdx place⟩
    obtain ⟨u, hu, hmore⟩ : ∃ u, Reaches Any next u ∧ u.probes = next.probes + 1 :=
      admits_probe_of_free hfree
    refine ⟨u, hu, ?_⟩
    rw [hmore]
    show (s.inFlight.eraseIdx place).countP (·.acquiredIn = .halfOpen) + 1 = 2
    unfold probes at hprobes hsingle
    simp only [hclosed] at hcount
    simp at hcount
    omega

/-- A breaker as the platform configures it. -/
def standard : CircuitBreaker := ⟨3, 30, 0, none, false, by decide, by norm_num⟩

/-- Four executions enter while the circuit is closed, three of them fail, and it opens.
Half a minute later a fifth enters as its probe.  Then the one that is left is cancelled,
and a sixth enters as another probe. -/
def lateCalls : List Call :=
  [.enter 0 0, .enter 0 0, .enter 0 0, .enter 0 0,
    .leave 1 .fail 1, .leave 1 .fail 1, .leave 1 .fail 1,
    .enter 31 31, .leave 0 .abandon 32, .enter 33 33]

theorem secondProbe : CircuitBreaker.create 3 30 = some standard ∧
    ∃ s, Reaches Any (start standard 0) s ∧ s.probes = 2 := by
  have hrun : ((start standard 0).run lateCalls).map probes = some 2 := by decide +kernel
  obtain ⟨s, hs, hprobes⟩ := Option.map_eq_some_iff.mp hrun
  exact ⟨by decide +kernel, s, reaches_of_run hs, hprobes⟩

end Sharing

end AegisPlatform
