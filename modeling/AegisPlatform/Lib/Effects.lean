import Mathlib.Data.List.Basic

/-!
# Programs that call their environment

A program that alternates private computation with **calls** to an environment it
knows nothing about: each call is answered with a value of the call's own type, or
with an exception.  What the program has seen so far is its history.

* `Prog` — a program: return, raise, or a call.  It is a monad with exceptions, so
  the programs of a model are written as the code they translate; `Prog.ensure` is
  `try: … finally: …`.
* `Env`, `Prog.run` — an environment that may take the whole history into account,
  and the history a program ends with under it.
* `Prog.wp` — the rule for a program: every call it makes is allowed by what came
  before, and its outcome satisfies `Q`, whatever lawful answers it gets.
* `Prog.run_calls`, `Prog.run_outcome` — what the rule buys.
* `Prog.Asks` — what a program may call at all.
-/

namespace Effects

variable {κ : Type} {ρ : κ → Type} {ε α β : Type}

/-- A program whose calls are named by `κ` and answered in `ρ`; it raises in `ε` or
returns an `α`. -/
inductive Prog (κ : Type) (ρ : κ → Type) (ε α : Type) where
  | ret (a : α)
  | raise (e : ε)
  | call (c : κ) (next : Except ε (ρ c) → Prog κ ρ ε α)

/-- A call with its answer. -/
abbrev Answered (κ : Type) (ρ : κ → Type) (ε : Type) := Σ c : κ, Except ε (ρ c)

/-- The calls a program has made, in order. -/
abbrev History (κ : Type) (ρ : κ → Type) (ε : Type) := List (Answered κ ρ ε)

/-- What answers the calls; it may remember every call made so far. -/
abbrev Env (κ : Type) (ρ : κ → Type) (ε : Type) := History κ ρ ε → (c : κ) → Except ε (ρ c)

namespace Prog

/-- Sequencing. -/
protected def bind : Prog κ ρ ε α → (α → Prog κ ρ ε β) → Prog κ ρ ε β
  | ret a, f => f a
  | raise e, _ => raise e
  | call c next, f => call c fun r => (next r).bind f

/-- Handling an exception. -/
protected def handle : Prog κ ρ ε α → (ε → Prog κ ρ ε α) → Prog κ ρ ε α
  | ret a, _ => ret a
  | raise e, f => f e
  | call c next, f => call c fun r => (next r).handle f

instance : Monad (Prog κ ρ ε) where
  pure := ret
  bind := Prog.bind

instance : MonadExceptOf ε (Prog κ ρ ε) where
  throw := raise
  tryCatch := Prog.handle

/-- A step of private computation. -/
def ofExcept : Except ε α → Prog κ ρ ε α
  | .ok a => ret a
  | .error e => raise e

/-- Run to the end and hand the outcome on. -/
def caught : Prog κ ρ ε α → Prog κ ρ ε (Except ε α)
  | ret a => ret (.ok a)
  | raise e => ret (.error e)
  | call c next => call c fun r => (next r).caught

/-- `try: … finally: …`; what the second program raises is raised instead. -/
def ensure (p : Prog κ ρ ε α) (last : Prog κ ρ ε Unit) : Prog κ ρ ε α := do
  let outcome ← p.caught
  last
  ofExcept outcome

/-- One call, whose answer may be an exception. -/
def ask (c : κ) : Prog κ ρ ε (ρ c) := call c ofExcept

/-! ## Running -/

/-- Run a program after some history: the history it ends with, and its outcome. -/
def run (env : Env κ ρ ε) : Prog κ ρ ε α → History κ ρ ε → History κ ρ ε × Except ε α
  | ret a, h => (h, .ok a)
  | raise e, h => (h, .error e)
  | call c next, h => (next (env h c)).run env (h ++ [⟨c, env h c⟩])

/-! ## The rule -/

variable (Lawful : (c : κ) → Except ε (ρ c) → Prop) (Allowed : History κ ρ ε → κ → Prop)

/-- After the history, every call the program makes is allowed, and its outcome
satisfies `Q`, as long as the answers are lawful. -/
def wp (Q : Except ε α → History κ ρ ε → Prop) : Prog κ ρ ε α → History κ ρ ε → Prop
  | ret a, h => Q (.ok a) h
  | raise e, h => Q (.error e) h
  | call c next, h => Allowed h c ∧ ∀ r, Lawful c r → (next r).wp Q (h ++ [⟨c, r⟩])

variable {Lawful Allowed} {Q : Except ε α → History κ ρ ε → Prop} {h : History κ ρ ε}

theorem wp_mono {Q' : Except ε α → History κ ρ ε → Prop} (hQ : ∀ o h, Q o h → Q' o h)
    (p : Prog κ ρ ε α) {h : History κ ρ ε} (hp : p.wp Lawful Allowed Q h) :
    p.wp Lawful Allowed Q' h := by
  induction p generalizing h with
  | ret a => exact hQ _ _ hp
  | raise e => exact hQ _ _ hp
  | call c next ih => exact ⟨hp.1, fun r hr => ih r (hp.2 r hr)⟩

/-- Sequencing: the rest starts from the history the first part ends with. -/
theorem wp_bind {f : β → Prog κ ρ ε α} (p : Prog κ ρ ε β)
    (hp : p.wp Lawful Allowed (fun o h => match o with
      | .ok b => (f b).wp Lawful Allowed Q h
      | .error e => Q (.error e) h) h) : (p >>= f).wp Lawful Allowed Q h := by
  induction p generalizing h with
  | ret a => exact hp
  | raise e => exact hp
  | call c next ih => exact ⟨hp.1, fun r hr => ih r (hp.2 r hr)⟩

/-- Handling: the handler starts from the history that led to the exception. -/
theorem wp_handle {f : ε → Prog κ ρ ε α} (p : Prog κ ρ ε α)
    (hp : p.wp Lawful Allowed (fun o h => match o with
      | .ok a => Q (.ok a) h
      | .error e => (f e).wp Lawful Allowed Q h) h) :
    (tryCatch p f).wp Lawful Allowed Q h := by
  induction p generalizing h with
  | ret a => exact hp
  | raise e => exact hp
  | call c next ih => exact ⟨hp.1, fun r hr => ih r (hp.2 r hr)⟩

theorem wp_ofExcept {x : Except ε α} (hx : Q x h) : (ofExcept x).wp Lawful Allowed Q h := by
  cases x <;> exact hx

/-- A private computation and what follows it. -/
theorem wp_ofExcept_bind {x : Except ε β} {f : β → Prog κ ρ ε α}
    (herror : ∀ e, x = .error e → Q (.error e) h)
    (hok : ∀ b, x = .ok b → (f b).wp Lawful Allowed Q h) :
    (ofExcept x >>= f).wp Lawful Allowed Q h := by
  cases x with
  | ok b => exact hok b rfl
  | error e => exact herror e rfl

theorem wp_ite {P : Prop} [Decidable P] {p p' : Prog κ ρ ε α}
    (hpos : P → p.wp Lawful Allowed Q h) (hneg : ¬ P → p'.wp Lawful Allowed Q h) :
    (if P then p else p').wp Lawful Allowed Q h := by
  split
  · exact hpos ‹_›
  · exact hneg ‹_›

theorem wp_caught {Q : Except ε (Except ε α) → History κ ρ ε → Prop} (p : Prog κ ρ ε α)
    (hp : p.wp Lawful Allowed (fun o h => Q (.ok o) h) h) : p.caught.wp Lawful Allowed Q h := by
  induction p generalizing h with
  | ret a => exact hp
  | raise e => exact hp
  | call c next ih => exact ⟨hp.1, fun r hr => ih r (hp.2 r hr)⟩

/-- Running to the end first, and going on with the outcome. -/
theorem wp_caught_bind {f : Except ε β → Prog κ ρ ε α} (p : Prog κ ρ ε β)
    (hp : p.wp Lawful Allowed (fun o h => (f o).wp Lawful Allowed Q h) h) :
    (p.caught >>= f).wp Lawful Allowed Q h :=
  wp_bind _ (wp_caught p hp)

/-- The second program starts where the first has ended, whatever its outcome was. -/
theorem wp_ensure {last : Prog κ ρ ε Unit} (p : Prog κ ρ ε α)
    (hp : p.wp Lawful Allowed (fun o h => last.wp Lawful Allowed (fun o' h => match o' with
      | .ok _ => Q o h
      | .error e => Q (.error e) h) h) h) : (p.ensure last).wp Lawful Allowed Q h := by
  refine wp_caught_bind p (wp_mono (fun o h hlast => ?_) p hp)
  refine wp_bind last (wp_mono (fun o' h hQ => ?_) last hlast)
  cases o' with
  | ok _ => exact wp_ofExcept hQ
  | error e => exact hQ

/-- One call: it is allowed, and every lawful answer satisfies `Q`. -/
theorem wp_ask {c : κ} {Q : Except ε (ρ c) → History κ ρ ε → Prop} (hc : Allowed h c)
    (hQ : ∀ r, Lawful c r → Q r (h ++ [⟨c, r⟩])) : (ask c).wp Lawful Allowed Q h :=
  ⟨hc, fun r hr => wp_ofExcept (hQ r hr)⟩

/-- A call and what follows it. -/
theorem wp_ask_bind {c : κ} {f : ρ c → Prog κ ρ ε α} (hc : Allowed h c)
    (herror : ∀ e, Lawful c (.error e) → Q (.error e) (h ++ [⟨c, .error e⟩]))
    (hok : ∀ a, Lawful c (.ok a) → (f a).wp Lawful Allowed Q (h ++ [⟨c, .ok a⟩])) :
    (ask c >>= f).wp Lawful Allowed Q h := by
  refine wp_bind _ (wp_ask hc fun r hr => ?_)
  cases r with
  | error e => exact herror e hr
  | ok a => exact hok a hr

/-! ## What the rule buys -/

variable {env : Env κ ρ ε} {p : Prog κ ρ ε α}

/-- The outcome of a run satisfies what the rule says. -/
theorem run_outcome (henv : ∀ h c, Lawful c (env h c)) (hp : p.wp Lawful Allowed Q h) :
    Q (p.run env h).2 (p.run env h).1 := by
  induction p generalizing h with
  | ret a => exact hp
  | raise e => exact hp
  | call c next ih => exact ih _ (hp.2 _ (henv h c))

/-- A run adds to the history it started with. -/
theorem run_history (env : Env κ ρ ε) (p : Prog κ ρ ε α) (h : History κ ρ ε) :
    ∃ later, (p.run env h).1 = h ++ later := by
  induction p generalizing h with
  | ret a => exact ⟨[], (List.append_nil h).symm⟩
  | raise e => exact ⟨[], (List.append_nil h).symm⟩
  | call c next ih =>
    obtain ⟨later, hlater⟩ := ih (env h c) (h ++ [⟨c, env h c⟩])
    exact ⟨⟨c, env h c⟩ :: later, by rw [run, hlater, List.append_assoc]; rfl⟩

/-- **Every call of a run is allowed by what came before it**, as long as the answers in it are
lawful. -/
theorem run_calls (hlawful : ∀ x ∈ (p.run env h).1, Lawful x.1 x.2)
    (hp : p.wp Lawful Allowed Q h) {before later : History κ ρ ε} {x : Answered κ ρ ε}
    (hrun : (p.run env h).1 = h ++ before ++ x :: later) : Allowed (h ++ before) x.1 := by
  have hend : ∀ h : History κ ρ ε, ∀ before, h ≠ h ++ before ++ x :: later := by
    intro h before heq
    have hlength := congrArg List.length heq
    simp at hlength
  induction p generalizing h before with
  | ret a => exact absurd hrun (hend h before)
  | raise e => exact absurd hrun (hend h before)
  | call c next ih =>
    rw [run] at hrun hlawful
    obtain ⟨rest, hrest⟩ := run_history env (next (env h c)) (h ++ [⟨c, env h c⟩])
    cases before with
    | nil =>
      -- the call is the first one of what the program does from here
      rw [hrest, List.append_nil, List.append_assoc] at hrun
      have hx := List.append_cancel_left hrun
      rw [List.singleton_append, List.cons.injEq] at hx
      rw [← hx.1, List.append_nil]
      exact hp.1
    | cons y before =>
      have hy : y = ⟨c, env h c⟩ := by
        rw [hrest, List.append_assoc, List.append_assoc] at hrun
        have hx := List.append_cancel_left hrun
        rw [List.singleton_append, List.cons_append, List.cons.injEq] at hx
        exact hx.1.symm
      subst hy
      have hanswer : Lawful c (env h c) := by
        refine hlawful ⟨c, env h c⟩ ?_
        rw [hrest]
        simp
      have hsplit : h ++ ⟨c, env h c⟩ :: before = h ++ [⟨c, env h c⟩] ++ before := by
        rw [List.append_assoc, List.singleton_append]
      rw [hsplit] at hrun ⊢
      exact ih _ hlawful (hp.2 _ hanswer) hrun

/-- The same, by the place of the call. -/
theorem run_calls_at (hlawful : ∀ x ∈ (p.run env []).1, Lawful x.1 x.2)
    (hp : p.wp Lawful Allowed Q []) {n : ℕ} {x : Answered κ ρ ε}
    (hx : (p.run env []).1[n]? = some x) : Allowed ((p.run env []).1.take n) x.1 := by
  obtain ⟨hlt, hget⟩ := List.getElem?_eq_some_iff.1 hx
  have hsplit : (p.run env []).1 =
      [] ++ (p.run env []).1.take n ++ x :: (p.run env []).1.drop (n + 1) := by
    rw [List.nil_append, ← hget, ← List.drop_eq_getElem_cons hlt, List.take_append_drop]
  exact run_calls hlawful hp hsplit

/-- Every answer of a run is what the environment gives after the calls before it. -/
theorem run_answers {before later : History κ ρ ε} {x : Answered κ ρ ε}
    (hrun : (p.run env h).1 = h ++ before ++ x :: later) : x.2 = env (h ++ before) x.1 := by
  have hend : ∀ h : History κ ρ ε, ∀ before, h ≠ h ++ before ++ x :: later := by
    intro h before heq
    have hlength := congrArg List.length heq
    simp at hlength
  induction p generalizing h before with
  | ret a => exact absurd hrun (hend h before)
  | raise e => exact absurd hrun (hend h before)
  | call c next ih =>
    rw [run] at hrun
    obtain ⟨rest, hrest⟩ := run_history env (next (env h c)) (h ++ [⟨c, env h c⟩])
    have hsplit := hrun
    rw [hrest, List.append_assoc, List.append_assoc] at hsplit
    have hfirst := List.append_cancel_left hsplit
    cases before with
    | nil =>
      rw [List.singleton_append, List.nil_append, List.cons.injEq] at hfirst
      rw [List.append_nil, ← hfirst.1]
    | cons y before =>
      rw [List.singleton_append, List.cons_append, List.cons.injEq] at hfirst
      have hnext : h ++ y :: before = h ++ [⟨c, env h c⟩] ++ before := by
        rw [← hfirst.1, List.append_assoc, List.singleton_append]
      rw [hnext] at hrun ⊢
      exact ih _ hrun

/-- The same, by the place of the call. -/
theorem run_answers_at {n : ℕ} {x : Answered κ ρ ε} (hx : (p.run env []).1[n]? = some x) :
    x.2 = env ((p.run env []).1.take n) x.1 := by
  obtain ⟨hlt, hget⟩ := List.getElem?_eq_some_iff.1 hx
  have hsplit : (p.run env []).1 =
      [] ++ (p.run env []).1.take n ++ x :: (p.run env []).1.drop (n + 1) := by
    rw [List.nil_append, ← hget, ← List.drop_eq_getElem_cons hlt, List.take_append_drop]
  exact run_answers hsplit

/-- An environment that answers lawfully does so in every run. -/
theorem run_lawful (henv : ∀ h c, Lawful c (env h c)) (p : Prog κ ρ ε α)
    (h : History κ ρ ε) (hh : ∀ x ∈ h, Lawful x.1 x.2) :
    ∀ x ∈ (p.run env h).1, Lawful x.1 x.2 := by
  induction p generalizing h with
  | ret a => exact hh
  | raise e => exact hh
  | call c next ih =>
    refine ih _ _ fun x hx => ?_
    rcases List.mem_append.1 hx with hx | hx
    · exact hh x hx
    · rw [List.mem_singleton.1 hx]
      exact henv h c

/-! ## What a program may call -/

/-- Every call the program may make satisfies `P`, whatever it is answered. -/
def Asks (P : κ → Prop) : Prog κ ρ ε α → Prop
  | ret _ => True
  | raise _ => True
  | call c next => P c ∧ ∀ r, (next r).Asks P

variable {P : κ → Prop}

theorem asks_pure (a : α) : (pure a : Prog κ ρ ε α).Asks P := trivial

theorem asks_throw (e : ε) : (throw e : Prog κ ρ ε α).Asks P := trivial

theorem asks_ofExcept (x : Except ε α) : (ofExcept x : Prog κ ρ ε α).Asks P := by
  cases x <;> trivial

theorem asks_ask {c : κ} (hc : P c) : (ask c : Prog κ ρ ε (ρ c)).Asks P :=
  ⟨hc, fun r => asks_ofExcept r⟩

theorem asks_bind {p : Prog κ ρ ε α} {f : α → Prog κ ρ ε β} (hp : p.Asks P)
    (hf : ∀ a, (f a).Asks P) : (p >>= f).Asks P := by
  induction p with
  | ret a => exact hf a
  | raise e => trivial
  | call c next ih => exact ⟨hp.1, fun r => ih r (hp.2 r)⟩

theorem asks_handle {p : Prog κ ρ ε α} {f : ε → Prog κ ρ ε α} (hp : p.Asks P)
    (hf : ∀ e, (f e).Asks P) : (tryCatch p f).Asks P := by
  induction p with
  | ret a => trivial
  | raise e => exact hf e
  | call c next ih => exact ⟨hp.1, fun r => ih r (hp.2 r)⟩

theorem asks_caught {p : Prog κ ρ ε α} (hp : p.Asks P) : p.caught.Asks P := by
  induction p with
  | ret a => trivial
  | raise e => trivial
  | call c next ih => exact ⟨hp.1, fun r => ih r (hp.2 r)⟩

theorem asks_ensure {p : Prog κ ρ ε α} {last : Prog κ ρ ε Unit} (hp : p.Asks P)
    (hlast : last.Asks P) : (p.ensure last).Asks P :=
  asks_bind (asks_caught hp) fun o => asks_bind hlast fun _ => asks_ofExcept o

/-- What calls of a kind keep is kept by a program that makes no others. -/
theorem Asks.keeps {I : History κ ρ ε → Prop} (hP : ∀ h c, P c → Allowed h c)
    (hI : ∀ h c r, P c → I h → I (h ++ [⟨c, r⟩])) {p : Prog κ ρ ε α} (hp : p.Asks P)
    {h : History κ ρ ε} (hh : I h) : p.wp Lawful Allowed (fun _ h' => I h') h := by
  induction p generalizing h with
  | ret a => exact hh
  | raise e => exact hh
  | call c next ih => exact ⟨hP h c hp.1, fun r _ => ih r (hp.2 r) (hI h c r hp.1 hh)⟩

/-- A program keeps an invariant under which everything it may call is allowed. -/
theorem Asks.under {I : History κ ρ ε → Prop} (hP : ∀ h c, I h → P c → Allowed h c)
    (hI : ∀ h c r, P c → I h → I (h ++ [⟨c, r⟩])) {p : Prog κ ρ ε α} (hp : p.Asks P)
    {h : History κ ρ ε} (hh : I h) : p.wp Lawful Allowed (fun _ h' => I h') h := by
  induction p generalizing h with
  | ret a => exact hh
  | raise e => exact hh
  | call c next ih => exact ⟨hP h c hh hp.1, fun r _ => ih r (hp.2 r) (hI h c r hp.1 hh)⟩

theorem Asks.mono {P' : κ → Prop} (hP : ∀ c, P c → P' c) {p : Prog κ ρ ε α} (hp : p.Asks P) :
    p.Asks P' := by
  induction p with
  | ret a => trivial
  | raise e => trivial
  | call c next ih => exact ⟨hP c hp.1, fun r => ih r (hp.2 r)⟩

/-- A program follows a rule that allows everything it may call. -/
theorem Asks.wp (hP : ∀ h c, P c → Allowed h c) {p : Prog κ ρ ε α} (hp : p.Asks P)
    (h : History κ ρ ε) : p.wp Lawful Allowed (fun _ _ => True) h :=
  hp.keeps hP (fun _ _ _ _ _ => trivial) trivial

/-! ## What a program leaves -/

/-- If the program raises nothing, what it returns and the history it ends with satisfy `R`. -/
def Leaves (p : Prog κ ρ ε α) (h : History κ ρ ε) (R : α → History κ ρ ε → Prop) : Prop :=
  p.wp (fun _ _ => True) (fun _ _ => True) (fun o h' => ∀ a, o = .ok a → R a h') h

section

variable {R R' : α → History κ ρ ε → Prop} {S : β → History κ ρ ε → Prop}

theorem Leaves.mono (hp : p.Leaves h R) (hR : ∀ a h', R a h' → R' a h') : p.Leaves h R' :=
  wp_mono (fun _ _ ho a ha => hR a _ (ho a ha)) p hp

theorem leaves_pure {a : α} (ha : R a h) : (pure a : Prog κ ρ ε α).Leaves h R := by
  rintro _ heq
  cases heq
  exact ha

theorem leaves_throw {e : ε} : (throw e : Prog κ ρ ε α).Leaves h R := fun _ heq => by cases heq

theorem leaves_bind {f : α → Prog κ ρ ε β} (hp : p.Leaves h fun a h' => (f a).Leaves h' S) :
    (p >>= f).Leaves h S := by
  refine wp_bind _ (wp_mono (fun o h' ho => ?_) _ hp)
  cases o with
  | ok a => exact ho a rfl
  | error e => exact fun _ heq => by cases heq

theorem leaves_ask {c : κ} {R : ρ c → History κ ρ ε → Prop}
    (hR : ∀ a, R a (h ++ [⟨c, .ok a⟩])) : (ask c : Prog κ ρ ε (ρ c)).Leaves h R := by
  refine wp_ask trivial fun r _ a ha => ?_
  rw [ha]
  exact hR a

theorem leaves_ofExcept {x : Except ε α} (hx : ∀ a, x = .ok a → R a h) :
    (ofExcept x : Prog κ ρ ε α).Leaves h R := by
  cases x with
  | ok a => exact leaves_pure (hx a rfl)
  | error e => exact leaves_throw

end

end Prog

end Effects
