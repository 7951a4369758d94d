import AegisPlatform.Domain.Model
import AegisPlatform.Lib.Assoc

/-!
# The rate limits of a model

`TokenBucket` and `ProviderControls.admit`, which debits two of them.  Clock readings,
capacities and amounts are rationals.

* `TokenBucket.consume` — the code; `refilled` is the level it finds.
* `TokenBucket.rate_law` — what is granted in a window, for every sequence of calls.
* `ProviderControls.admit` — a request and its tokens, or neither.
* `ProviderControls.denied_iff` — when a denied admission costs nothing.
-/

namespace AegisPlatform

open Fallible

structure TokenBucket where
  capacity : ℚ
  refillPerSecond : ℚ
  tokens : ℚ
  updatedAt : ℚ
  valid : 0 < capacity ∧ 0 < refillPerSecond
  deriving DecidableEq

namespace TokenBucket

/-- `__post_init__`: a new bucket is full. -/
def create (capacity refillPerSecond clock : ℚ) : Except Raised TokenBucket :=
  if h : 0 < capacity ∧ 0 < refillPerSecond then
    .ok ⟨capacity, refillPerSecond, capacity, clock, h⟩
  else .error (.valueError "rate limit values must be positive")

/-- The level of the bucket at a reading of the clock. -/
def refilled (b : TokenBucket) (now : ℚ) : ℚ :=
  min b.capacity (b.tokens + max 0 (now - b.updatedAt) * b.refillPerSecond)

/-- The bucket with its level stored. -/
def settledAt (b : TokenBucket) (now : ℚ) : TokenBucket :=
  { b with tokens := b.refilled now, updatedAt := now }

/-- `consume`, and the bucket after it.  An amount that is refused for what it is leaves
the bucket alone. -/
def consume (b : TokenBucket) (amount now : ℚ) : Except Raised Bool × TokenBucket :=
  if amount ≤ 0 ∨ b.capacity < amount then
    (.error (.valueError "rate limit amount is invalid"), b)
  else if b.refilled now < amount then (.ok false, b.settledAt now)
  else (.ok true, { b.settledAt now with tokens := b.refilled now - amount })

/-! ## Levels -/

variable {b : TokenBucket} {amount now now' : ℚ}

theorem refilled_le_capacity (b : TokenBucket) (now : ℚ) : b.refilled now ≤ b.capacity :=
  min_le_left _ _

theorem refilled_eq (h : b.updatedAt ≤ now) :
    b.refilled now = min b.capacity (b.tokens + (now - b.updatedAt) * b.refillPerSecond) := by
  rw [refilled, max_eq_right (by linarith)]

/-- A level rises by at most what flows in. -/
theorem refilled_le_add (h : b.updatedAt ≤ now) (hle : now ≤ now') :
    b.refilled now' ≤ b.refilled now + (now' - now) * b.refillPerSecond := by
  have hrate := b.valid.2
  have hflow : 0 ≤ (now' - now) * b.refillPerSecond := mul_nonneg (by linarith) hrate.le
  rw [refilled_eq h, refilled_eq (h.trans hle)]
  by_cases hfull : b.capacity ≤ b.tokens + (now - b.updatedAt) * b.refillPerSecond
  · rw [min_eq_left hfull]
    exact (min_le_left _ _).trans (by linarith)
  · rw [min_eq_right (le_of_not_ge hfull)]
    refine (min_le_right _ _).trans (le_of_eq ?_)
    ring

/-- Storing the level on the way changes no later one. -/
theorem refilled_settledAt (h : b.updatedAt ≤ now) (hle : now ≤ now') :
    (b.settledAt now).refilled now' = b.refilled now' := by
  have hrate := b.valid.2
  have hflow : 0 ≤ (now' - now) * b.refillPerSecond := mul_nonneg (by linarith) hrate.le
  have hstored : (b.settledAt now).refilled now' =
      min b.capacity (b.refilled now + (now' - now) * b.refillPerSecond) :=
    refilled_eq (b := b.settledAt now) hle
  rw [hstored, refilled_eq h, refilled_eq (h.trans hle)]
  have hsum : b.tokens + (now' - b.updatedAt) * b.refillPerSecond =
      b.tokens + (now - b.updatedAt) * b.refillPerSecond + (now' - now) * b.refillPerSecond := by
    ring
  by_cases hfull : b.capacity ≤ b.tokens + (now - b.updatedAt) * b.refillPerSecond
  · rw [min_eq_left hfull, hsum, min_eq_left (by linarith), min_eq_left (by linarith)]
  · rw [min_eq_right (le_of_not_ge hfull), hsum]

/-- A later level, from the level on the way. -/
theorem refilled_later (h : b.updatedAt ≤ now) (hle : now ≤ now') :
    b.refilled now' = min b.capacity (b.refilled now + (now' - now) * b.refillPerSecond) := by
  rw [← refilled_settledAt h hle]
  exact refilled_eq (b := b.settledAt now) hle

theorem settledAt_settledAt (h : b.updatedAt ≤ now) (hle : now ≤ now') :
    (b.settledAt now).settledAt now' = b.settledAt now' := by
  have hlevel := refilled_settledAt h hle
  unfold settledAt at hlevel ⊢
  rw [hlevel]

/-- A level is stored within the bounds of its bucket. -/
structure Bounded (b : TokenBucket) : Prop where
  nonneg : 0 ≤ b.tokens
  le_capacity : b.tokens ≤ b.capacity

theorem Bounded.refilled_nonneg (h : b.Bounded) (now : ℚ) : 0 ≤ b.refilled now := by
  refine le_min b.valid.1.le (add_nonneg h.nonneg ?_)
  exact mul_nonneg (le_max_left _ _) b.valid.2.le

theorem Bounded.settledAt (h : b.Bounded) (now : ℚ) : (b.settledAt now).Bounded :=
  ⟨h.refilled_nonneg now, b.refilled_le_capacity now⟩

/-- What a call can do. -/
theorem consume_cases (b : TokenBucket) (amount now : ℚ) :
    ((amount ≤ 0 ∨ b.capacity < amount) ∧
      b.consume amount now = (.error (.valueError "rate limit amount is invalid"), b)) ∨
    (0 < amount ∧ amount ≤ b.capacity ∧ b.refilled now < amount ∧
      b.consume amount now = (.ok false, b.settledAt now)) ∨
    (0 < amount ∧ amount ≤ b.refilled now ∧
      b.consume amount now =
        (.ok true, { b.settledAt now with tokens := b.refilled now - amount })) := by
  unfold consume
  by_cases hinvalid : amount ≤ 0 ∨ b.capacity < amount
  · exact Or.inl ⟨hinvalid, if_pos hinvalid⟩
  · rw [if_neg hinvalid]
    obtain ⟨hpos, hle⟩ := not_or.1 hinvalid
    by_cases hshort : b.refilled now < amount
    · exact Or.inr (Or.inl ⟨lt_of_not_ge hpos, le_of_not_gt hle, hshort, if_pos hshort⟩)
    · exact Or.inr (Or.inr ⟨lt_of_not_ge hpos, le_of_not_gt hshort, if_neg hshort⟩)

theorem Bounded.consume (h : b.Bounded) (amount now : ℚ) : (b.consume amount now).2.Bounded := by
  rcases consume_cases b amount now with ⟨-, heq⟩ | ⟨-, -, -, heq⟩ | ⟨hpos, hle, heq⟩
  · rw [heq]
    exact h
  · rw [heq]
    exact h.settledAt now
  · rw [heq]
    have hfull := b.refilled_le_capacity now
    refine ⟨?_, ?_⟩
    · show 0 ≤ b.refilled now - amount
      linarith
    · show b.refilled now - amount ≤ b.capacity
      linarith

/-! ## Windows -/

/-- A call of `consume`. -/
structure Call where
  amount : ℚ
  now : ℚ

/-- The calls read the clock in order, none before `t`. -/
def Ordered (t : ℚ) : List Call → Prop
  | [] => True
  | call :: rest => t ≤ call.now ∧ Ordered call.now rest

/-- The bucket after the calls. -/
def after (b : TokenBucket) (calls : List Call) : TokenBucket :=
  calls.foldl (fun b call => (b.consume call.amount call.now).2) b

/-- What the calls between two instants were granted. -/
def grantedIn (s t : ℚ) : TokenBucket → List Call → ℚ
  | _, [] => 0
  | b, call :: rest =>
    (if (b.consume call.amount call.now).1 = .ok true ∧ s ≤ call.now ∧ call.now ≤ t then
      call.amount
    else 0) + grantedIn s t (b.consume call.amount call.now).2 rest

theorem Bounded.after (h : b.Bounded) (calls : List Call) : (b.after calls).Bounded := by
  induction calls generalizing b with
  | nil => exact h
  | cons call rest ih => exact ih (h.consume call.amount call.now)

/-- A call leaves the limits of its bucket alone. -/
theorem limits_consume (b : TokenBucket) (amount now : ℚ) :
    (b.consume amount now).2.capacity = b.capacity ∧
      (b.consume amount now).2.refillPerSecond = b.refillPerSecond := by
  rcases consume_cases b amount now with ⟨-, heq⟩ | ⟨-, -, -, heq⟩ | ⟨-, -, heq⟩
  · rw [heq]
    exact ⟨rfl, rfl⟩
  · rw [heq]
    exact ⟨rfl, rfl⟩
  · rw [heq]
    exact ⟨rfl, rfl⟩

@[simp]
theorem capacity_consume (b : TokenBucket) (amount now : ℚ) :
    (b.consume amount now).2.capacity = b.capacity :=
  (b.limits_consume amount now).1

@[simp]
theorem capacity_after (b : TokenBucket) (calls : List Call) :
    (b.after calls).capacity = b.capacity := by
  induction calls generalizing b with
  | nil => rfl
  | cons call rest ih => exact (ih _).trans (b.capacity_consume call.amount call.now)

@[simp]
theorem refillPerSecond_consume (b : TokenBucket) (amount now : ℚ) :
    (b.consume amount now).2.refillPerSecond = b.refillPerSecond :=
  (b.limits_consume amount now).2

/-- After a call the level of any later instant is what it would have been, less what was
granted. -/
theorem refilled_consume (h : b.updatedAt ≤ now) (amount : ℚ) :
    (b.consume amount now).2.updatedAt ≤ now ∧ ∀ now', now ≤ now' →
      (if (b.consume amount now).1 = .ok true then amount else 0) +
        (b.consume amount now).2.refilled now' ≤
      b.refilled now + (now' - now) * b.refillPerSecond ∧
      (b.consume amount now).2.refilled now' ≤ b.refilled now' := by
  rcases consume_cases b amount now with ⟨-, heq⟩ | ⟨-, -, -, heq⟩ | ⟨hpos, hle, heq⟩
  · rw [heq]
    refine ⟨h, fun now' hnow => ⟨?_, le_rfl⟩⟩
    rw [if_neg (by simp), zero_add]
    exact refilled_le_add h hnow
  · rw [heq]
    refine ⟨le_rfl, fun now' hnow => ⟨?_, (refilled_settledAt h hnow).le⟩⟩
    rw [if_neg (by simp), zero_add, refilled_settledAt h hnow]
    exact refilled_le_add h hnow
  · rw [heq]
    refine ⟨le_rfl, fun now' hnow => ?_⟩
    let debited : TokenBucket := { b.settledAt now with tokens := b.refilled now - amount }
    have hdebited : debited.refilled now' =
        min b.capacity (b.refilled now - amount + (now' - now) * b.refillPerSecond) :=
      refilled_eq (b := debited) hnow
    have hlater := refilled_later h hnow
    show (if (Except.ok true : Except Raised Bool) = .ok true then amount else 0) +
      debited.refilled now' ≤ _ ∧ debited.refilled now' ≤ _
    rw [if_pos rfl, hdebited, hlater]
    refine ⟨?_, min_le_min_left _ (by linarith)⟩
    have := min_le_right b.capacity (b.refilled now - amount + (now' - now) * b.refillPerSecond)
    linarith

theorem grantedIn_eq_zero {s t : ℚ} {calls : List Call} {u : ℚ} (hordered : Ordered u calls)
    (hlate : t < u) (b : TokenBucket) : grantedIn s t b calls = 0 := by
  induction calls generalizing b u with
  | nil => rfl
  | cons call rest ih =>
    obtain ⟨hnow, hrest⟩ := hordered
    rw [grantedIn, if_neg (fun h => absurd h.2.2 (by linarith)), zero_add]
    exact ih hrest (by linarith) _

/-- What is granted until `t` comes from the level at the start and from what flows in. -/
theorem grantedIn_le {s t : ℚ} {calls : List Call} {u : ℚ} (hordered : Ordered u calls)
    (hu : b.updatedAt ≤ u) (hs : s ≤ u) (ht : u ≤ t) (hb : b.Bounded) :
    grantedIn s t b calls ≤ b.refilled u + (t - u) * b.refillPerSecond := by
  induction calls generalizing b u with
  | nil =>
    have hflow : 0 ≤ (t - u) * b.refillPerSecond := mul_nonneg (by linarith) b.valid.2.le
    have hlevel := hb.refilled_nonneg u
    show (0 : ℚ) ≤ _
    linarith
  | cons call rest ih =>
    obtain ⟨hnow, hrest⟩ := hordered
    by_cases hlate : t < call.now
    · -- the call and all later ones are past the window
      have hordered' : Ordered call.now (call :: rest) := ⟨le_rfl, hrest⟩
      have hzero : grantedIn s t b (call :: rest) = 0 := grantedIn_eq_zero hordered' hlate b
      have hflow : 0 ≤ (t - u) * b.refillPerSecond := mul_nonneg (by linarith) b.valid.2.le
      have hlevel := hb.refilled_nonneg u
      rw [hzero]
      linarith
    · have hin : call.now ≤ t := le_of_not_gt hlate
      obtain ⟨hupdated, hlevels⟩ := refilled_consume (hu.trans hnow) call.amount
      have hlater := ih hrest hupdated (hs.trans hnow) hin (hb.consume call.amount call.now)
      have hgrant := (hlevels call.now le_rfl).1
      have hlevel := refilled_le_add hu hnow
      have hwindow : (b.consume call.amount call.now).1 = .ok true ∧ s ≤ call.now ∧ call.now ≤ t ↔
          (b.consume call.amount call.now).1 = .ok true :=
        ⟨fun h => h.1, fun h => ⟨h, hs.trans hnow, hin⟩⟩
      rw [grantedIn]
      simp only [hwindow]
      rw [refillPerSecond_consume] at hlater
      have hsplit : (t - u) * b.refillPerSecond =
          (call.now - u) * b.refillPerSecond + (t - call.now) * b.refillPerSecond := by ring
      rw [hsplit]
      linarith

/-- Calls before the window grant nothing in it, and leave no more than there was. -/
theorem grantedIn_window {s t : ℚ} (hst : s ≤ t) {calls : List Call} {u : ℚ}
    (hordered : Ordered u calls) (hu : b.updatedAt ≤ u) (hb : b.Bounded) :
    grantedIn s t b calls ≤ b.capacity + (t - s) * b.refillPerSecond := by
  have hflow : 0 ≤ (t - s) * b.refillPerSecond := mul_nonneg (by linarith) b.valid.2.le
  induction calls generalizing b u with
  | nil =>
    have := b.valid.1
    show (0 : ℚ) ≤ _
    linarith
  | cons call rest ih =>
    obtain ⟨hnow, hrest⟩ := hordered
    by_cases hbefore : call.now < s
    · have hupdated := (refilled_consume (hu.trans hnow) call.amount).1
      rw [grantedIn, if_neg (fun h => absurd h.2.1 (by linarith)), zero_add]
      have hlater := ih hrest hupdated (hb.consume call.amount call.now)
        (by rw [refillPerSecond_consume]; exact hflow)
      rwa [capacity_consume, refillPerSecond_consume] at hlater
    · have hs : s ≤ call.now := le_of_not_gt hbefore
      have hordered' : Ordered call.now (call :: rest) := ⟨le_rfl, hrest⟩
      by_cases hlate : t < call.now
      · have hzero : grantedIn s t b (call :: rest) = 0 := grantedIn_eq_zero hordered' hlate b
        have := b.valid.1
        rw [hzero]
        linarith
      · have hin : call.now ≤ t := le_of_not_gt hlate
        have hlevel := grantedIn_le hordered' (hu.trans hnow) hs hin hb
        have hfull := b.refilled_le_capacity call.now
        have hshorter : (t - call.now) * b.refillPerSecond ≤ (t - s) * b.refillPerSecond :=
          mul_le_mul_of_nonneg_right (by linarith) b.valid.2.le
        linarith

/-- **The rate law.**  Whatever is asked of a new bucket, as long as the clock does not go
back its level stays within its bounds, and no window grants more than the capacity and
what flows in meanwhile. -/
theorem rate_law {capacity refillPerSecond clock : ℚ}
    (hcreate : create capacity refillPerSecond clock = .ok b) {calls : List Call}
    (hordered : Ordered clock calls) :
    0 ≤ (b.after calls).tokens ∧ (b.after calls).tokens ≤ capacity ∧
      ∀ s t, s ≤ t → grantedIn s t b calls ≤ capacity + refillPerSecond * (t - s) := by
  unfold create at hcreate
  split at hcreate
  · rename_i hvalid
    cases hcreate
    have hb : Bounded ⟨capacity, refillPerSecond, capacity, clock, hvalid⟩ :=
      ⟨hvalid.1.le, le_rfl⟩
    have hafter := hb.after calls
    have hle := hafter.le_capacity
    rw [capacity_after] at hle
    refine ⟨hafter.nonneg, hle, fun s t hst => ?_⟩
    rw [mul_comm]
    exact grantedIn_window hst hordered le_rfl hb
  · cases hcreate

/-- A bucket of sixty that refills once a second. -/
def minuteBucket : TokenBucket := ⟨60, 1, 60, 0, by norm_num⟩

theorem rate_law_busy :
    grantedIn 5 20 minuteBucket [⟨50, 0⟩, ⟨40, 6⟩, ⟨20, 10⟩, ⟨25, 30⟩] ≤ 60 + 1 * (20 - 5) := by
  have hordered : Ordered 0 [⟨50, 0⟩, ⟨40, 6⟩, ⟨20, 10⟩, ⟨25, 30⟩] := by
    simp only [Ordered]
    norm_num
  have hcreate : create 60 1 0 = .ok minuteBucket := by decide +kernel
  exact (rate_law hcreate hordered).2.2 5 20 (by norm_num)

/-! ## Buckets that agree -/

/-- From an instant on two buckets cannot be told apart. -/
structure Agree (t : ℚ) (b b' : TokenBucket) : Prop where
  updatedAt : b.updatedAt ≤ t
  updatedAt' : b'.updatedAt ≤ t
  level : b.settledAt t = b'.settledAt t

namespace Agree

variable {b' : TokenBucket} {t t' : ℚ}

theorem rfl' (h : b.updatedAt ≤ t) : Agree t b b := ⟨h, h, rfl⟩

theorem settled (h : b.updatedAt ≤ t) (hle : t ≤ t') : Agree t' b (b.settledAt t) :=
  ⟨h.trans hle, hle, (settledAt_settledAt h hle).symm⟩

theorem mono (h : Agree t b b') (hle : t ≤ t') : Agree t' b b' := by
  refine ⟨h.updatedAt.trans hle, h.updatedAt'.trans hle, ?_⟩
  rw [← settledAt_settledAt h.updatedAt hle, h.level, settledAt_settledAt h.updatedAt' hle]

theorem capacity (h : Agree t b b') : b.capacity = b'.capacity := by
  have heq := congrArg TokenBucket.capacity h.level
  exact heq

theorem refilled (h : Agree t b b') (hle : t ≤ t') : b.refilled t' = b'.refilled t' := by
  have heq := congrArg TokenBucket.tokens (h.mono hle).level
  exact heq

/-- What agrees answers alike, and agrees afterwards. -/
theorem consume (h : Agree t b b') (hle : t ≤ now) (amount : ℚ) :
    (b.consume amount now).1 = (b'.consume amount now).1 ∧
      Agree now (b.consume amount now).2 (b'.consume amount now).2 := by
  have hnow := h.mono hle
  have hlevel := h.refilled hle
  have hcapacity := h.capacity
  unfold TokenBucket.consume
  rw [← hcapacity, ← hlevel]
  by_cases hinvalid : amount ≤ 0 ∨ b.capacity < amount
  · rw [if_pos hinvalid, if_pos hinvalid]
    exact ⟨rfl, hnow⟩
  · rw [if_neg hinvalid, if_neg hinvalid, ← hnow.level]
    by_cases hshort : b.refilled now < amount
    · rw [if_pos hshort]
      exact ⟨rfl, rfl' le_rfl⟩
    · rw [if_neg hshort]
      exact ⟨rfl, rfl' le_rfl⟩

end Agree

end TokenBucket

/-! ## Admission -/

/-- The buckets of `ProviderControls`, by model. -/
structure ProviderControls where
  requestBuckets : Assoc ModelIdentity TokenBucket
  tokenBuckets : Assoc ModelIdentity TokenBucket
  deriving DecidableEq

/-- A call of `admit`; the clock is read once for each bucket. -/
structure Admission where
  tokens : ℚ
  now : ℚ
  now' : ℚ

namespace ProviderControls

/-- `admit`, and the controls after it. -/
def admitCall (c : ProviderControls) (model : ModelIdentity) (a : Admission) :
    Except Raised Bool × ProviderControls :=
  match c.tokenBuckets.lookup model with
  | none => (.error (.valueError "model is not configured for runtime controls"), c)
  | some tokenBucket =>
    if tokenBucket.capacity < a.tokens then (.ok false, c)
    else
      match c.requestBuckets.lookup model with
      | none => (.error (.valueError "model is not configured for runtime controls"), c)
      | some requestBucket =>
        let requests := requestBucket.consume 1 a.now
        let c := { c with requestBuckets := c.requestBuckets.set model requests.2 }
        match requests.1 with
        | .ok true =>
          let tokens := tokenBucket.consume a.tokens a.now'
          (tokens.1, { c with tokenBuckets := c.tokenBuckets.set model tokens.2 })
        | refused => (refused, c)

/-- What calls on a model return, one after the other. -/
def results (model : ModelIdentity) : ProviderControls → List Admission → List (Except Raised Bool)
  | _, [] => []
  | c, a :: rest => (c.admitCall model a).1 :: results model (c.admitCall model a).2 rest

end ProviderControls

/-- The calls read the clock in order, never before `t`. -/
def Admission.Ordered (t : ℚ) : List Admission → Prop
  | [] => True
  | a :: rest => t ≤ a.now ∧ a.now ≤ a.now' ∧ Ordered a.now' rest

/-- The two buckets of one model. -/
structure Limits where
  requests : TokenBucket
  tokens : TokenBucket

namespace Limits

/-- `admit` on the buckets of its model. -/
def admitCall (l : Limits) (a : Admission) : Except Raised Bool × Limits :=
  if l.tokens.capacity < a.tokens then (.ok false, l)
  else
    match (l.requests.consume 1 a.now).1 with
    | .ok true =>
      ((l.tokens.consume a.tokens a.now').1,
        ⟨(l.requests.consume 1 a.now).2, (l.tokens.consume a.tokens a.now').2⟩)
    | refused => (refused, { l with requests := (l.requests.consume 1 a.now).2 })

def results : Limits → List Admission → List (Except Raised Bool)
  | _, [] => []
  | l, a :: rest => (l.admitCall a).1 :: results (l.admitCall a).2 rest

/-- The controls hold these buckets for the model. -/
structure Of (l : Limits) (c : ProviderControls) (model : ModelIdentity) : Prop where
  requests : c.requestBuckets.lookup model = some l.requests
  tokens : c.tokenBuckets.lookup model = some l.tokens

variable {l l' : Limits} {c : ProviderControls} {model : ModelIdentity} {t : ℚ}

/-- The controls do for a model what its buckets do. -/
theorem Of.admitCall (h : l.Of c model) (a : Admission) :
    (c.admitCall model a).1 = (l.admitCall a).1 ∧
      (l.admitCall a).2.Of (c.admitCall model a).2 model := by
  unfold ProviderControls.admitCall Limits.admitCall
  rw [h.tokens]
  dsimp only
  by_cases hlarge : l.tokens.capacity < a.tokens
  · rw [if_pos hlarge, if_pos hlarge]
    exact ⟨rfl, h⟩
  · rw [if_neg hlarge, if_neg hlarge, h.requests]
    dsimp only
    have hset : (c.requestBuckets.set model (l.requests.consume 1 a.now).2).lookup model =
        some (l.requests.consume 1 a.now).2 := by
      rw [Assoc.lookup_set, if_pos rfl]
    split
    · refine ⟨rfl, hset, ?_⟩
      rw [Assoc.lookup_set, if_pos rfl]
    · exact ⟨rfl, hset, h.tokens⟩

theorem Of.results (h : l.Of c model) (calls : List Admission) :
    c.results model calls = l.results calls := by
  induction calls generalizing c l with
  | nil => rfl
  | cons a rest ih =>
    obtain ⟨hresult, hnext⟩ := h.admitCall a
    rw [ProviderControls.results, Limits.results, hresult, ih hnext]

/-- From an instant on the buckets of the one cannot be told from those of the other. -/
structure Agree (t : ℚ) (l l' : Limits) : Prop where
  requests : TokenBucket.Agree t l.requests l'.requests
  tokens : TokenBucket.Agree t l.tokens l'.tokens

theorem Agree.admitCall (h : Agree t l l') {a : Admission} (hnow : t ≤ a.now)
    (hnow' : a.now ≤ a.now') :
    (l.admitCall a).1 = (l'.admitCall a).1 ∧ Agree a.now' (l.admitCall a).2 (l'.admitCall a).2 := by
  obtain ⟨hanswer, hrequests⟩ := h.requests.consume hnow 1
  obtain ⟨hanswer', htokens⟩ := h.tokens.consume (hnow.trans hnow') a.tokens
  have hkept := h.tokens.mono (hnow.trans hnow')
  unfold Limits.admitCall
  rw [← h.tokens.capacity, ← hanswer]
  by_cases hlarge : l.tokens.capacity < a.tokens
  · rw [if_pos hlarge, if_pos hlarge]
    exact ⟨rfl, h.requests.mono (hnow.trans hnow'), hkept⟩
  · rw [if_neg hlarge, if_neg hlarge]
    split
    · exact ⟨hanswer', hrequests.mono hnow', htokens⟩
    · exact ⟨rfl, hrequests.mono hnow', hkept⟩

theorem Agree.results (h : Agree t l l') {calls : List Admission}
    (hordered : Admission.Ordered t calls) : l.results calls = l'.results calls := by
  induction calls generalizing t l l' with
  | nil => rfl
  | cons a rest ih =>
    obtain ⟨hnow, hnow', hrest⟩ := hordered
    obtain ⟨hanswer, hnext⟩ := h.admitCall hnow hnow'
    rw [Limits.results, Limits.results, hanswer, ih hnext hrest]

/-! ## Buckets that differ -/

theorem admit_granted {a : Admission} (hsmall : ¬ l.tokens.capacity < a.tokens)
    (hrequest : l.requests.consume 1 a.now =
      (.ok true, { l.requests.settledAt a.now with tokens := l.requests.refilled a.now - 1 })) :
    l.admitCall a = ((l.tokens.consume a.tokens a.now').1,
      ⟨{ l.requests.settledAt a.now with tokens := l.requests.refilled a.now - 1 },
        (l.tokens.consume a.tokens a.now').2⟩) := by
  rw [admitCall, if_neg hsmall, hrequest]

theorem admit_refused {a : Admission} (hsmall : ¬ l.tokens.capacity < a.tokens)
    (hrequest : l.requests.consume 1 a.now = (.ok false, l.requests.settledAt a.now)) :
    l.admitCall a = (.ok false, { l with requests := l.requests.settledAt a.now }) := by
  rw [admitCall, if_neg hsmall, hrequest]

theorem consume_one {b : TokenBucket} {now : ℚ} (h : 1 ≤ b.refilled now) :
    b.consume 1 now = (.ok true, { b.settledAt now with tokens := b.refilled now - 1 }) := by
  have hfull := b.refilled_le_capacity now
  rcases b.consume_cases 1 now with ⟨hinvalid, -⟩ | ⟨-, -, hshort, -⟩ | ⟨-, -, heq⟩
  · rcases hinvalid with hneg | hlarge
    · norm_num at hneg
    · linarith
  · linarith
  · exact heq

theorem consume_one_short {b : TokenBucket} {now : ℚ} (hcapacity : 1 ≤ b.capacity)
    (h : b.refilled now < 1) : b.consume 1 now = (.ok false, b.settledAt now) := by
  rcases b.consume_cases 1 now with ⟨hinvalid, -⟩ | ⟨-, -, -, heq⟩ | ⟨-, hle, -⟩
  · rcases hinvalid with hneg | hlarge
    · norm_num at hneg
    · linarith
  · exact heq
  · linarith

/-- The level of the request bucket after a debit and a wait. -/
theorem refilled_debited_later (b : TokenBucket) {now now' : ℚ} (hle : now ≤ now') :
    TokenBucket.refilled { b.settledAt now with tokens := b.refilled now - 1 } now' =
      min b.capacity (b.refilled now - 1 + (now' - now) * b.refillPerSecond) :=
  TokenBucket.refilled_eq (b := { b.settledAt now with tokens := b.refilled now - 1 }) hle

/-- The level after a debit, at the same reading of the clock. -/
theorem refilled_debited (b : TokenBucket) (now : ℚ) :
    TokenBucket.refilled { b.settledAt now with tokens := b.refilled now - 1 } now =
      b.refilled now - 1 := by
  have hfull := b.refilled_le_capacity now
  rw [refilled_debited_later b le_rfl, sub_self, zero_mul, add_zero]
  exact min_eq_right (by linarith)

/-- The buckets after a call that used up a request and got no tokens. -/
def drained (l : Limits) (t : ℚ) : Limits where
  requests := { l.requests.settledAt t with tokens := l.requests.refilled t - 1 }
  tokens := l.tokens.settledAt t

theorem admit_drained (hrequest : 1 ≤ l.requests.refilled t)
    (hshort : l.tokens.refilled t < l.tokens.capacity) :
    l.admitCall ⟨l.tokens.capacity, t, t⟩ = (.ok false, l.drained t) := by
  have hsmall : ¬ l.tokens.capacity < l.tokens.capacity := lt_irrefl _
  have hdenied : l.tokens.consume l.tokens.capacity t = (.ok false, l.tokens.settledAt t) := by
    rcases l.tokens.consume_cases l.tokens.capacity t with ⟨hinvalid, -⟩ | ⟨-, -, -, heq⟩ |
      ⟨-, hle, -⟩
    · rcases hinvalid with hneg | hlarge
      · exact absurd l.tokens.valid.1 (not_lt.2 hneg)
      · exact absurd hlarge hsmall
    · exact heq
    · exact absurd hshort (not_lt.2 hle)
  have hgranted := admit_granted (l := l) (a := ⟨l.tokens.capacity, t, t⟩) hsmall
    (consume_one hrequest)
  rw [hgranted, hdenied, drained]

/-- Less than one request is left at the lower level: a little later there is one at the
other, and none at it. -/
theorem differ_of_low (h : l.requests.capacity = l'.requests.capacity)
    (hrate : l.requests.refillPerSecond = l'.requests.refillPerSecond)
    (hone : 1 ≤ l.requests.capacity) (hupdated : l.requests.updatedAt ≤ t)
    (hupdated' : l'.requests.updatedAt ≤ t) (hlow : l'.requests.refilled t < 1)
    (hlt : l'.requests.refilled t < l.requests.refilled t)
    (htokens : TokenBucket.Agree t l.tokens l'.tokens) (htokens0 : 0 ≤ l.tokens.refilled t) :
    ∃ calls, Admission.Ordered t calls ∧ l.results calls ≠ l'.results calls := by
  have hcapacity := htokens.capacity
  have hflow := l.requests.valid.2
  let gap := max 0 (1 - l.requests.refilled t)
  let wait := (gap + (1 - l'.requests.refilled t)) / (2 * l.requests.refillPerSecond)
  have hgap : gap < 1 - l'.requests.refilled t := max_lt (by linarith) (by linarith)
  have hgap0 : 0 ≤ gap := le_max_left _ _
  have hgap1 : 1 - l.requests.refilled t ≤ gap := le_max_right _ _
  have hwait : wait * l.requests.refillPerSecond = (gap + (1 - l'.requests.refilled t)) / 2 := by
    show (gap + (1 - l'.requests.refilled t)) / (2 * l.requests.refillPerSecond) *
      l.requests.refillPerSecond = _
    field_simp
  have hwait0 : 0 < wait := div_pos (by linarith) (by linarith)
  have hlater : t ≤ t + wait := by linarith
  have hhigh : 1 ≤ l.requests.refilled (t + wait) := by
    rw [TokenBucket.refilled_later hupdated hlater, add_sub_cancel_left, hwait]
    exact le_min hone (by linarith)
  have hstill : l'.requests.refilled (t + wait) < 1 := by
    have hle := TokenBucket.refilled_le_add hupdated' hlater
    rw [add_sub_cancel_left, ← hrate, hwait] at hle
    linarith
  have hsome : 0 < l.tokens.refilled (t + wait) := by
    have hflows := mul_pos hwait0 l.tokens.valid.2
    rw [TokenBucket.refilled_later htokens.updatedAt hlater, add_sub_cancel_left]
    exact lt_min l.tokens.valid.1 (by linarith)
  let a : Admission := ⟨l.tokens.refilled (t + wait), t + wait, t + wait⟩
  have hsmall : ¬ l.tokens.capacity < a.tokens := not_lt.2 (l.tokens.refilled_le_capacity _)
  have hsmall' : ¬ l'.tokens.capacity < a.tokens := hcapacity ▸ hsmall
  have hgrant : (l.tokens.consume a.tokens a.now').1 = .ok true := by
    rcases l.tokens.consume_cases a.tokens a.now' with ⟨hinvalid, -⟩ | ⟨-, -, hless, -⟩ |
      ⟨-, -, heq⟩
    · rcases hinvalid with hneg | hlarge
      · exact absurd hsome (not_lt.2 hneg)
      · exact absurd hlarge hsmall
    · exact absurd hless (lt_irrefl _)
    · rw [heq]
  have hadmitted : (l.admitCall a).1 = .ok true := by
    rw [admit_granted hsmall (consume_one hhigh)]
    exact hgrant
  have hrefused : (l'.admitCall a).1 = .ok false := by
    rw [admit_refused hsmall' (consume_one_short (h ▸ hone) hstill)]
  refine ⟨[a], ⟨hlater, le_rfl, trivial⟩, ?_⟩
  show [(l.admitCall a).1] ≠ [(l'.admitCall a).1]
  rw [hadmitted, hrefused]
  simp

/-- **A lower level shows**: calls that the token bucket refuses use up what is left of
whole requests, and a little later one request more is admitted than at the lower level. -/
theorem differ (h : l.requests.capacity = l'.requests.capacity)
    (hrate : l.requests.refillPerSecond = l'.requests.refillPerSecond)
    (hone : 1 ≤ l.requests.capacity) (hupdated : l.requests.updatedAt ≤ t)
    (hupdated' : l'.requests.updatedAt ≤ t)
    (hlt : l'.requests.refilled t < l.requests.refilled t)
    (htokens : TokenBucket.Agree t l.tokens l'.tokens) (htokens0 : 0 ≤ l.tokens.refilled t)
    (hshort : l.tokens.refilled t < l.tokens.capacity) :
    ∃ calls, Admission.Ordered t calls ∧ l.results calls ≠ l'.results calls := by
  generalize hn : ⌊l'.requests.refilled t⌋₊ = n
  induction n generalizing l l' with
  | zero =>
    have hlow : l'.requests.refilled t < 1 := Nat.floor_eq_zero.1 hn
    exact differ_of_low h hrate hone hupdated hupdated' hlow hlt htokens htokens0
  | succ n ih =>
    have hrequest' : 1 ≤ l'.requests.refilled t := by
      by_contra hlow
      rw [Nat.floor_eq_zero.2 (not_le.1 hlow)] at hn
      cases hn
    have hrequest : 1 ≤ l.requests.refilled t := by linarith
    have hstep := admit_drained hrequest hshort
    have hstep' : l'.admitCall ⟨l.tokens.capacity, t, t⟩ = (.ok false, l'.drained t) := by
      rw [htokens.capacity]
      refine admit_drained hrequest' ?_
      rw [← htokens.refilled le_rfl, ← htokens.capacity]
      exact hshort
    have hlevel : (l.drained t).requests.refilled t = l.requests.refilled t - 1 :=
      refilled_debited l.requests t
    have hlevel' : (l'.drained t).requests.refilled t = l'.requests.refilled t - 1 :=
      refilled_debited l'.requests t
    have htokens' : TokenBucket.Agree t (l.drained t).tokens (l'.drained t).tokens :=
      ⟨le_rfl, le_rfl, by
        show (l.tokens.settledAt t).settledAt t = (l'.tokens.settledAt t).settledAt t
        rw [htokens.level]⟩
    have hkept : (l.drained t).tokens.refilled t = l.tokens.refilled t :=
      TokenBucket.refilled_settledAt htokens.updatedAt le_rfl
    obtain ⟨calls, hordered, hdiffer⟩ := @ih (l.drained t) (l'.drained t) h hrate hone
      le_rfl le_rfl (by rw [hlevel, hlevel']; linarith) htokens' (by rw [hkept]; exact htokens0)
      (by rw [hkept]; exact hshort)
      (by rw [hlevel', Nat.floor_sub_one, hn, Nat.add_sub_cancel])
    refine ⟨⟨l.tokens.capacity, t, t⟩ :: calls, ⟨le_rfl, le_rfl, hordered⟩, fun hsame => ?_⟩
    rw [results, results, hstep, hstep'] at hsame
    exact hdiffer (List.cons.inj hsame).2

/-! ## What a denial costs -/

/-- The call is refused by the amount alone or by the request bucket, or else the request it
has used up flows in again before it reads the clock for the last time. -/
def Free (l : Limits) (a : Admission) : Prop :=
  l.tokens.capacity < a.tokens ∨ l.requests.refilled a.now < 1 ∨
    l.requests.capacity ≤
      l.requests.refilled a.now - 1 + (a.now' - a.now) * l.requests.refillPerSecond

variable {a : Admission}

/-- How a call can be denied. -/
theorem denied_cases (h : (l.admitCall a).1 = .ok false) :
    (l.tokens.capacity < a.tokens ∧ (l.admitCall a).2 = l) ∨
    (l.requests.refilled a.now < 1 ∧
      (l.admitCall a).2 = { l with requests := l.requests.settledAt a.now }) ∨
    (1 ≤ l.requests.refilled a.now ∧ a.tokens ≤ l.tokens.capacity ∧
      l.tokens.refilled a.now' < a.tokens ∧
      (l.admitCall a).2 =
        ⟨{ l.requests.settledAt a.now with tokens := l.requests.refilled a.now - 1 },
          l.tokens.settledAt a.now'⟩) := by
  by_cases hsmall : l.tokens.capacity < a.tokens
  · refine Or.inl ⟨hsmall, ?_⟩
    rw [admitCall, if_pos hsmall]
  · refine Or.inr ?_
    rcases l.requests.consume_cases 1 a.now with ⟨-, heq⟩ | ⟨-, -, hshort, heq⟩ | ⟨-, hle, heq⟩
    · rw [admitCall, if_neg hsmall, heq] at h
      cases h
    · refine Or.inl ⟨hshort, ?_⟩
      rw [admit_refused hsmall heq]
    · rw [admit_granted hsmall heq] at h ⊢
      rcases l.tokens.consume_cases a.tokens a.now' with ⟨-, heq'⟩ | ⟨-, -, hshort, heq'⟩ |
        ⟨-, -, heq'⟩
      · rw [heq'] at h
        cases h
      · refine Or.inr ⟨hle, not_lt.1 hsmall, hshort, ?_⟩
        rw [heq']
      · rw [heq'] at h
        cases h

theorem free_iff (hrequests : l.requests.updatedAt ≤ a.now)
    (htokens : l.tokens.updatedAt ≤ a.now') (hnow : a.now ≤ a.now')
    (hbounded : l.tokens.Bounded) (h : (l.admitCall a).1 = .ok false) :
    (∀ later, Admission.Ordered a.now' later → (l.admitCall a).2.results later = l.results later) ↔
      l.Free a := by
  have hkept : TokenBucket.Agree a.now' l.tokens l.tokens := .rfl' htokens
  rcases denied_cases h with ⟨hlarge, heq⟩ | ⟨hshort, heq⟩ | ⟨hone, hle, hshort, heq⟩
  · refine iff_of_true (fun later _ => ?_) (Or.inl hlarge)
    rw [heq]
  · refine iff_of_true (fun later hordered => ?_) (Or.inr (Or.inl hshort))
    have hagree : Agree a.now' l { l with requests := l.requests.settledAt a.now } :=
      ⟨.settled hrequests hnow, hkept⟩
    rw [heq]
    exact (hagree.results hordered).symm
  · let requests : TokenBucket :=
      { l.requests.settledAt a.now with tokens := l.requests.refilled a.now - 1 }
    have hlevel : requests.refilled a.now' = min l.requests.capacity
        (l.requests.refilled a.now - 1 + (a.now' - a.now) * l.requests.refillPerSecond) :=
      refilled_debited_later l.requests hnow
    have hlevel' := TokenBucket.refilled_later hrequests hnow
    have htokens' : TokenBucket.Agree a.now' l.tokens (l.tokens.settledAt a.now') :=
      .settled htokens le_rfl
    rw [heq]
    constructor
    · intro hsame
      by_contra hcosts
      obtain ⟨-, hcosts⟩ := not_or.1 hcosts
      have hless : l.requests.refilled a.now - 1 +
          (a.now' - a.now) * l.requests.refillPerSecond < l.requests.capacity :=
        not_le.1 (not_or.1 hcosts).2
      have hlt : requests.refilled a.now' < l.requests.refilled a.now' := by
        rw [hlevel, hlevel', min_eq_right hless.le]
        exact lt_min hless (by linarith)
      obtain ⟨calls, hordered, hdiffer⟩ : ∃ calls, Admission.Ordered a.now' calls ∧
          l.results calls ≠ results ⟨requests, l.tokens.settledAt a.now'⟩ calls :=
        differ rfl rfl (hone.trans (l.requests.refilled_le_capacity _)) (hrequests.trans hnow) hnow
          hlt htokens' (hbounded.refilled_nonneg _) (lt_of_lt_of_le hshort hle)
      exact hdiffer (hsame calls hordered).symm
    · rintro (hlarge | hless | hfull) later hordered
      · exact absurd hlarge (not_lt.2 hle)
      · exact absurd hone (not_le.2 hless)
      · have hagree : Agree a.now' l ⟨requests, l.tokens.settledAt a.now'⟩ := by
          refine ⟨⟨hrequests.trans hnow, hnow, ?_⟩, htokens'⟩
          show TokenBucket.mk _ _ _ _ _ = TokenBucket.mk _ _ _ _ _
          rw [TokenBucket.mk.injEq]
          refine ⟨rfl, rfl, ?_, rfl⟩
          rw [hlevel', min_eq_left (by linarith)]
          exact (hlevel.trans (min_eq_left hfull)).symm
        exact (hagree.results hordered).symm

end Limits

namespace ProviderControls

/-- **When a denied admission costs nothing**: exactly when no request was used up for it, or
the request bucket is full again by the end of the call. -/
theorem denied_iff {c : ProviderControls} {model : ModelIdentity} {l : Limits} {a : Admission}
    (hl : l.Of c model) (hrequests : l.requests.updatedAt ≤ a.now)
    (htokens : l.tokens.updatedAt ≤ a.now') (hnow : a.now ≤ a.now') (hbounded : l.tokens.Bounded)
    (hdenied : (c.admitCall model a).1 = .ok false) :
    (∀ later, Admission.Ordered a.now' later →
      (c.admitCall model a).2.results model later = c.results model later) ↔ l.Free a := by
  obtain ⟨hanswer, hnext⟩ := hl.admitCall a
  rw [← Limits.free_iff hrequests htokens hnow hbounded (hanswer.symm.trans hdenied)]
  refine forall₂_congr fun later _ => ?_
  rw [hl.results, hnext.results]

/-- A model. -/
theorem acme_named : "acme" ≠ "" ∧ "large" ≠ "" := by decide

def acme : ModelIdentity := ⟨"acme", "large", acme_named⟩

/-- Two requests and ten tokens a minute, after a call for six tokens at the start. -/
def sampleLimits : Limits := ⟨⟨2, 1 / 30, 1, 0, by norm_num⟩, ⟨10, 1 / 6, 4, 0, by norm_num⟩⟩

def sampleControls : ProviderControls :=
  ⟨[(acme, sampleLimits.requests)], [(acme, sampleLimits.tokens)]⟩

theorem denied_iff_large :
    (∀ later, Admission.Ordered 0 later →
      (sampleControls.admitCall acme ⟨11, 0, 0⟩).2.results acme later =
        sampleControls.results acme later) ↔ sampleLimits.Free ⟨11, 0, 0⟩ :=
  denied_iff (l := sampleLimits) (a := ⟨11, 0, 0⟩) ⟨by decide +kernel, by decide +kernel⟩
    le_rfl le_rfl le_rfl ⟨by decide +kernel, by decide +kernel⟩ (by decide +kernel)

/-- A second call for six tokens is denied for want of tokens, and has used up the last
request: a call for four is refused then, and would have been admitted without it. -/
theorem denied_for_tokens :
    (do
      let requests ← TokenBucket.create 2 (2 / 60) 0
      let tokens ← TokenBucket.create 10 (10 / 60) 0
      return (admitCall ⟨[(acme, requests)], [(acme, tokens)]⟩ acme ⟨6, 0, 0⟩).2) =
      .ok sampleControls ∧
    (sampleControls.admitCall acme ⟨6, 0, 0⟩).1 = .ok false ∧
    sampleControls.results acme [⟨4, 0, 0⟩] = [.ok true] ∧
    (sampleControls.admitCall acme ⟨6, 0, 0⟩).2.results acme [⟨4, 0, 0⟩] = [.ok false] := by
  decide +kernel

end ProviderControls

end AegisPlatform
