import Mathlib.Data.List.Basic
import Mathlib.Logic.Relation

/-!
# Transactions of several statements, interleaved

A transaction is a program of **statements**.  Each statement sees what is committed
when it runs and what its own transaction has written; it waits for the locks it needs,
and the transaction keeps them to its end.  Nothing of it is seen by the others before
it commits, and nothing of it is left when it does not.

* `Trans` — a program: return, raise, or a statement and what follows it.  A statement
  that fails ends its transaction.
* `Engine` — what a statement locks, does and answers, and what a commit does.
* `Sys`, `Step`, `Run` — any number of sessions, one statement at a time, in any order.
* `Safe` — the rule for one transaction: it does what it may, whatever the others commit
  meanwhile that its locks let them.
* `Run.good` — what the rule buys: invariants of the committed state, and what holds
  when a transaction is about to commit.
* `Trans.alone` — a transaction with nobody else about.
* `Sys.Waits` — who waits for whom.
* `Sys.drive` — a schedule, run; `Sys.drive_run` makes a run of it.
-/

namespace Transactions

variable {κ : Type} {ρ : κ → Type} {ε σ τ ℓ γ α β : Type}

/-! ## Programs -/

/-- A transaction whose statements are named by `κ` and answered in `ρ`; it raises in
`ε` or returns an `α`. -/
inductive Trans (κ : Type) (ρ : κ → Type) (ε α : Type) where
  | ret (a : α)
  | raise (e : ε)
  | exec (c : κ) (next : ρ c → Trans κ ρ ε α)

namespace Trans

/-- Sequencing. -/
protected def bind : Trans κ ρ ε α → (α → Trans κ ρ ε β) → Trans κ ρ ε β
  | ret a, f => f a
  | raise e, _ => raise e
  | exec c next, f => exec c fun r => (next r).bind f

instance : Monad (Trans κ ρ ε) where
  pure := ret
  bind := Trans.bind

/-- A step of private computation. -/
def ofExcept : Except ε α → Trans κ ρ ε α
  | .ok a => ret a
  | .error e => raise e

/-- One statement. -/
def execute (c : κ) : Trans κ ρ ε (ρ c) := exec c ret

end Trans

/-! ## The engine and its sessions -/

/-- What statements and commits do.  A transaction keeps its own writes in `τ`; a
statement changes the shared state only by what is never rolled back. -/
structure Engine (κ : Type) (ρ : κ → Type) (ε σ τ ℓ : Type) where
  /-- What a transaction begins with. -/
  start : σ → τ
  /-- The locks a statement takes. -/
  locks : κ → σ → τ → List ℓ
  /-- Run a statement. -/
  exec : (c : κ) → σ → τ → σ × τ × Except ε (ρ c)
  /-- Make the writes of a transaction visible. -/
  commit : τ → σ → σ
  /-- The error of a transaction that is given up. -/
  aborted : ε
  /-- What happens on its own. -/
  tick : σ → σ → Prop

/-- A session that runs the transaction of a call, or has ended it. -/
inductive Session (κ : Type) (ρ : κ → Type) (ε τ ℓ γ α : Type) where
  | running (call : γ) (prog : Trans κ ρ ε α) (own : τ) (held : List ℓ)
  | ended (call : γ) (outcome : Except ε α)

/-- The locks a session holds. -/
def Session.held : Session κ ρ ε τ ℓ γ α → List ℓ
  | running _ _ _ held => held
  | ended .. => []

/-- The shared state and the sessions, in the order in which they were called. -/
structure Sys (κ : Type) (ρ : κ → Type) (ε σ τ ℓ γ α : Type) where
  shared : σ
  sessions : List (Session κ ρ ε τ ℓ γ α)

/-- The locks that sessions other than `i` hold. -/
def Sys.heldBesides (s : Sys κ ρ ε σ τ ℓ γ α) (i : ℕ) : List ℓ :=
  (s.sessions.eraseIdx i).flatMap Session.held

theorem Sys.mem_heldBesides {s : Sys κ ρ ε σ τ ℓ γ α} {i : ℕ} {l : ℓ} :
    l ∈ s.heldBesides i ↔ ∃ j x, j ≠ i ∧ s.sessions[j]? = some x ∧ l ∈ x.held := by
  unfold heldBesides
  simp only [List.mem_flatMap, List.mem_eraseIdx_iff_getElem?]
  constructor
  · rintro ⟨x, ⟨j, hj, hx⟩, hl⟩
    exact ⟨j, x, hj, hx, hl⟩
  · rintro ⟨j, x, hj, hx, hl⟩
    exact ⟨x, ⟨j, hj, hx⟩, hl⟩

/-- What one step does, and which session does it. -/
inductive Action (γ : Type) where
  | call (g : γ)
  | exec (i : ℕ)
  | commit (i : ℕ)
  | rollback (i : ℕ)
  | abort (i : ℕ)
  | tick

/-- One step of the system, whose calls run the programs `prog`. -/
inductive Step (E : Engine κ ρ ε σ τ ℓ) (prog : γ → Trans κ ρ ε α) :
    Sys κ ρ ε σ τ ℓ γ α → Action γ → Sys κ ρ ε σ τ ℓ γ α → Prop
  | call {s : Sys κ ρ ε σ τ ℓ γ α} (g : γ) :
      Step E prog s (.call g)
        ⟨s.shared, s.sessions ++ [.running g (prog g) (E.start s.shared) []]⟩
  | exec {s : Sys κ ρ ε σ τ ℓ γ α} {i : ℕ} {g : γ} {c : κ} {next : ρ c → Trans κ ρ ε α} {own : τ}
      {held : List ℓ} {t : σ} {own' : τ} {a : ρ c} :
      s.sessions[i]? = some (.running g (.exec c next) own held) →
      (∀ l ∈ E.locks c s.shared own, l ∉ s.heldBesides i) →
      E.exec c s.shared own = (t, own', .ok a) →
      Step E prog s (.exec i)
        ⟨t, s.sessions.set i (.running g (next a) own' (held ++ E.locks c s.shared own))⟩
  | fail {s : Sys κ ρ ε σ τ ℓ γ α} {i : ℕ} {g : γ} {c : κ} {next : ρ c → Trans κ ρ ε α} {own : τ}
      {held : List ℓ} {t : σ} {own' : τ} {e : ε} :
      s.sessions[i]? = some (.running g (.exec c next) own held) →
      (∀ l ∈ E.locks c s.shared own, l ∉ s.heldBesides i) →
      E.exec c s.shared own = (t, own', .error e) →
      Step E prog s (.exec i) ⟨t, s.sessions.set i (.ended g (.error e))⟩
  | commit {s : Sys κ ρ ε σ τ ℓ γ α} {i : ℕ} {g : γ} {a : α} {own : τ} {held : List ℓ} :
      s.sessions[i]? = some (.running g (.ret a) own held) →
      Step E prog s (.commit i) ⟨E.commit own s.shared, s.sessions.set i (.ended g (.ok a))⟩
  | rollback {s : Sys κ ρ ε σ τ ℓ γ α} {i : ℕ} {g : γ} {e : ε} {own : τ} {held : List ℓ} :
      s.sessions[i]? = some (.running g (.raise e) own held) →
      Step E prog s (.rollback i) ⟨s.shared, s.sessions.set i (.ended g (.error e))⟩
  | abort {s : Sys κ ρ ε σ τ ℓ γ α} {i : ℕ} {g : γ} {p : Trans κ ρ ε α} {own : τ}
      {held : List ℓ} :
      s.sessions[i]? = some (.running g p own held) →
      Step E prog s (.abort i) ⟨s.shared, s.sessions.set i (.ended g (.error E.aborted))⟩
  | tick {s : Sys κ ρ ε σ τ ℓ γ α} {t : σ} : E.tick s.shared t →
      Step E prog s .tick ⟨t, s.sessions⟩

/-- Any number of steps. -/
inductive Run (E : Engine κ ρ ε σ τ ℓ) (prog : γ → Trans κ ρ ε α) :
    Sys κ ρ ε σ τ ℓ γ α → Sys κ ρ ε σ τ ℓ γ α → Prop
  | refl (s : Sys κ ρ ε σ τ ℓ γ α) : Run E prog s s
  | tail {s t u : Sys κ ρ ε σ τ ℓ γ α} {a : Action γ} : Run E prog s t → Step E prog t a u →
      Run E prog s u

/-! ## The rule for one transaction -/

/-- What a development assumes and promises: an invariant of the shared state, what the
others may do to it under given locks, which locks a transaction may ask for given those
it holds, and what holds when it is about to commit or has raised. -/
structure Rule (κ : Type) (ρ : κ → Type) (ε σ τ ℓ γ α : Type) where
  inv : σ → Prop
  rely : List ℓ → σ → σ → Prop
  asks : γ → List ℓ → List ℓ → Prop
  done : γ → α → List ℓ → τ → σ → Prop
  failed : γ → ε → Prop

variable {E : Engine κ ρ ε σ τ ℓ} {R : Rule κ ρ ε σ τ ℓ γ α}

/-- From `s` on, and whatever the others do that the locks let them, the transaction
ends as the rule says, with `Q` for what it returns. -/
def Safe (E : Engine κ ρ ε σ τ ℓ) (R : Rule κ ρ ε σ τ ℓ γ α) (g : γ)
    (Q : β → List ℓ → τ → σ → Prop) : Trans κ ρ ε β → List ℓ → τ → σ → Prop
  | .ret b, held, own, s => ∀ t, R.inv t → R.rely held s t → Q b held own t
  | .raise e, _, _, _ => R.failed g e
  | .exec c next, held, own, s => ∀ t, R.inv t → R.rely held s t →
      R.asks g held (E.locks c t own) ∧
      (∀ u own' a, E.exec c t own = (u, own', .ok a) →
        Safe E R g Q (next a) (held ++ E.locks c t own) own' u) ∧
      ∀ u own' e, E.exec c t own = (u, own', .error e) → R.failed g e

/-- What a transaction can have come to hold by asking. -/
inductive Rule.Holds (R : Rule κ ρ ε σ τ ℓ γ α) (g : γ) : List ℓ → Prop
  | nil : R.Holds g []
  | ask {held more : List ℓ} : R.Holds g held → R.asks g held more → R.Holds g (held ++ more)

/-- What makes the rule sound: statements and commits keep the invariant and what the
others rely on. -/
structure Rule.Sound (E : Engine κ ρ ε σ τ ℓ) (R : Rule κ ρ ε σ τ ℓ γ α) : Prop where
  refl : ∀ held s, R.rely held s s
  trans : ∀ held s t u, R.rely held s t → R.rely held t u → R.rely held s u
  exec_inv : ∀ c s own, R.inv s → R.inv (E.exec c s own).1
  exec_rely : ∀ c s own held, R.inv s → R.rely held s (E.exec c s own).1
  commit_inv : ∀ g a held own s, R.inv s → R.done g a held own s → R.inv (E.commit own s)
  commit_rely : ∀ g a held own s other, R.inv s → R.done g a held own s →
    (∀ l ∈ other, l ∉ held) → R.rely other s (E.commit own s)
  tick_inv : ∀ s t, R.inv s → E.tick s t → R.inv t
  tick_rely : ∀ s t held, R.inv s → E.tick s t → R.rely held s t
  aborted : ∀ g, R.failed g E.aborted

variable {g : γ} {Q : β → List ℓ → τ → σ → Prop} {held : List ℓ} {own : τ} {s t : σ}

/-- The rule survives what the others do. -/
theorem Safe.later (hR : R.Sound E) {p : Trans κ ρ ε β} (h : Safe E R g Q p held own s)
    (hrely : R.rely held s t) : Safe E R g Q p held own t := by
  cases p with
  | ret b => exact fun u hu ht => h u hu (hR.trans _ _ _ _ hrely ht)
  | raise e => exact h
  | exec c next => exact fun u hu ht => h u hu (hR.trans _ _ _ _ hrely ht)

theorem Safe.mono {Q' : β → List ℓ → τ → σ → Prop}
    (hQ : ∀ b held own s, Q b held own s → Q' b held own s) {p : Trans κ ρ ε β}
    (h : Safe E R g Q p held own s) : Safe E R g Q' p held own s := by
  induction p generalizing held own s with
  | ret b => exact fun t ht hrely => hQ _ _ _ _ (h t ht hrely)
  | raise e => exact h
  | exec c next ih =>
    intro t ht hrely
    obtain ⟨hasks, hok, herror⟩ := h t ht hrely
    exact ⟨hasks, fun u own' a hexec => ih a (hok u own' a hexec), herror⟩

/-- Sequencing: the rest is judged from where the first part leaves things. -/
theorem Safe.bind {δ : Type} {f : δ → Trans κ ρ ε β} (hR : R.Sound E) {p : Trans κ ρ ε δ}
    (h : Safe E R g (fun a held own s => R.inv s → Safe E R g Q (f a) held own s) p held own s)
    (hs : R.inv s) : Safe E R g Q (p >>= f) held own s := by
  induction p generalizing held own s with
  | ret a => exact h s hs (hR.refl _ _) hs
  | raise e => exact h
  | exec c next ih =>
    intro t ht hrely
    obtain ⟨hasks, hok, herror⟩ := h t ht hrely
    refine ⟨hasks, fun u own' a hexec => ih a (hok u own' a hexec) ?_, herror⟩
    have hinv := hR.exec_inv c t own ht
    rw [hexec] at hinv
    exact hinv

theorem Safe.ofExcept_bind {δ : Type} {x : Except ε δ} {f : δ → Trans κ ρ ε β}
    (herror : ∀ e, x = .error e → R.failed g e)
    (hok : ∀ a, x = .ok a → Safe E R g Q (f a) held own s) :
    Safe E R g Q (Trans.ofExcept x >>= f) held own s := by
  cases x with
  | ok a => exact hok a rfl
  | error e => exact herror e rfl

/-- A statement and what follows it. -/
theorem Safe.execute_bind {c : κ} {f : ρ c → Trans κ ρ ε β}
    (h : ∀ t, R.inv t → R.rely held s t → R.asks g held (E.locks c t own) ∧
      (∀ u own' a, E.exec c t own = (u, own', .ok a) →
        Safe E R g Q (f a) (held ++ E.locks c t own) own' u) ∧
      ∀ u own' e, E.exec c t own = (u, own', .error e) → R.failed g e) :
    Safe E R g Q (Trans.execute c >>= f) held own s := h

/-! ## What the rule buys -/

/-- The state of a system whose transactions all follow the rule: no lock is held
twice. -/
structure Sys.Good (E : Engine κ ρ ε σ τ ℓ) (R : Rule κ ρ ε σ τ ℓ γ α)
    (s : Sys κ ρ ε σ τ ℓ γ α) : Prop where
  inv : R.inv s.shared
  exclusive : ∀ (i j : ℕ) (x y : Session κ ρ ε τ ℓ γ α) (l : ℓ), s.sessions[i]? = some x →
    s.sessions[j]? = some y → l ∈ x.held → l ∈ y.held → i = j
  safe : ∀ (i : ℕ) (g : γ) (p : Trans κ ρ ε α) (own : τ) (held : List ℓ),
    s.sessions[i]? = some (.running g p own held) → Safe E R g (R.done g) p held own s.shared
  holds : ∀ (i : ℕ) (g : γ) (p : Trans κ ρ ε α) (own : τ) (held : List ℓ),
    s.sessions[i]? = some (.running g p own held) → R.Holds g held
  failed : ∀ (i : ℕ) (g : γ) (e : ε), s.sessions[i]? = some (.ended g (.error e)) → R.failed g e

section

variable {x : Session κ ρ ε τ ℓ γ α} {i : ℕ}

/-- A session of the list with one session replaced. -/
theorem getElem?_set_cases {xs : List (Session κ ρ ε τ ℓ γ α)} {j : ℕ}
    {y : Session κ ρ ε τ ℓ γ α} (h : (xs.set i x)[j]? = some y) :
    (j = i ∧ y = x) ∨ (j ≠ i ∧ xs[j]? = some y) := by
  by_cases hj : j = i
  · subst hj
    rw [List.getElem?_set_self'] at h
    cases hxs : xs[j]? with
    | none => rw [hxs] at h; cases h
    | some z =>
      rw [hxs] at h
      cases h
      exact Or.inl ⟨rfl, rfl⟩
  · rw [List.getElem?_set_ne (Ne.symm hj)] at h
    exact Or.inr ⟨hj, h⟩

/-- Replacing a session by one that holds no lock of another's, after a change of the
shared state that the others were prepared for. -/
theorem Sys.Good.set (hR : R.Sound E) {s : Sys κ ρ ε σ τ ℓ γ α} (h : s.Good E R)
    (hinv : R.inv t) (hrely : ∀ j y, j ≠ i → s.sessions[j]? = some y → R.rely y.held s.shared t)
    (hheld : ∀ j y l, j ≠ i → s.sessions[j]? = some y → l ∈ x.held → l ∉ y.held)
    (hsafe : ∀ g p own held, x = .running g p own held →
      Safe E R g (R.done g) p held own t ∧ R.Holds g held)
    (hfailed : ∀ g e, x = .ended g (.error e) → R.failed g e) :
    Sys.Good E R ⟨t, s.sessions.set i x⟩ where
  inv := hinv
  exclusive j k y z l hj hk hy hz := by
    rcases getElem?_set_cases hj with ⟨rfl, rfl⟩ | ⟨hji, hj'⟩ <;>
      rcases getElem?_set_cases hk with ⟨rfl, rfl⟩ | ⟨hki, hk'⟩
    · rfl
    · exact absurd hz (hheld k z l hki hk' hy)
    · exact absurd hy (hheld j y l hji hj' hz)
    · exact h.exclusive j k y z l hj' hk' hy hz
  safe j g p own held hj := by
    rcases getElem?_set_cases hj with ⟨rfl, hx⟩ | ⟨hji, hj⟩
    · exact (hsafe g p own held hx.symm).1
    · exact (h.safe j g p own held hj).later hR (hrely j _ hji hj)
  holds j g p own held hj := by
    rcases getElem?_set_cases hj with ⟨rfl, hx⟩ | ⟨hji, hj⟩
    · exact (hsafe g p own held hx.symm).2
    · exact h.holds j g p own held hj
  failed j g e hj := by
    rcases getElem?_set_cases hj with ⟨rfl, hx⟩ | ⟨hji, hj⟩
    · exact hfailed g e hx.symm
    · exact h.failed j g e hj

end

variable {prog : γ → Trans κ ρ ε α}

/-- One step keeps a system good whose calls follow the rule. -/
theorem Sys.Good.step (hR : R.Sound E)
    (hcall : ∀ g s, R.inv s → Safe E R g (R.done g) (prog g) [] (E.start s) s)
    {s u : Sys κ ρ ε σ τ ℓ γ α} {a : Action γ} (h : s.Good E R) (hstep : Step E prog s a u) :
    u.Good E R := by
  cases hstep with
  | call g =>
    have hcases : ∀ (j : ℕ) (y : Session κ ρ ε τ ℓ γ α),
        (s.sessions ++ [.running g (prog g) (E.start s.shared) []])[j]? = some y →
        y = .running g (prog g) (E.start s.shared) [] ∨ s.sessions[j]? = some y := by
      intro j y hj
      rw [List.getElem?_append] at hj
      split at hj
      · exact Or.inr hj
      · exact Or.inl (List.mem_singleton.1 (List.mem_of_getElem? hj))
    refine ⟨h.inv, fun j k y z l hj hk hy hz => ?_, fun j g' p own held hj => ?_,
      fun j g' p own held hj => ?_, fun j g' e hj => ?_⟩
    · rcases hcases j y hj with rfl | hj
      · cases hy
      · rcases hcases k z hk with rfl | hk
        · cases hz
        · exact h.exclusive j k y z l hj hk hy hz
    · rcases hcases j _ hj with hy | hj
      · cases hy
        exact hcall g s.shared h.inv
      · exact h.safe j g' p own held hj
    · rcases hcases j _ hj with hy | hj
      · cases hy
        exact .nil
      · exact h.holds j g' p own held hj
    · rcases hcases j _ hj with hy | hj
      · cases hy
      · exact h.failed j g' e hj
  | @exec i g c next own held t own' a hi hfree hexec =>
    have hinv := hR.exec_inv c s.shared own h.inv
    have hrely := fun held => hR.exec_rely c s.shared own held h.inv
    rw [hexec] at hinv hrely
    refine h.set hR hinv (fun j y _ _ => hrely y.held) (fun j y l hj hy hl hly => ?_)
      (fun g' p own₁ held₁ hx => ?_) fun g' e hx => (by cases hx)
    · rcases List.mem_append.1 hl with hl | hl
      · exact hj (h.exclusive i j _ y l hi hy hl hly).symm
      · exact hfree l hl (Sys.mem_heldBesides.2 ⟨j, y, hj, hy, hly⟩)
    · cases hx
      obtain ⟨hasks, hok, -⟩ := h.safe i g _ own held hi s.shared h.inv (hR.refl _ _)
      exact ⟨hok t own' a hexec, (h.holds i g _ own held hi).ask hasks⟩
  | @fail i g c next own held t own' e hi hfree hexec =>
    have hinv := hR.exec_inv c s.shared own h.inv
    have hrely := fun held => hR.exec_rely c s.shared own held h.inv
    rw [hexec] at hinv hrely
    refine h.set hR hinv (fun j y _ _ => hrely y.held) (fun j y l _ _ hl => (by cases hl))
      (fun g' p own₁ held₁ hx => (by cases hx)) fun g' e' hx => ?_
    cases hx
    exact (h.safe i g _ own held hi s.shared h.inv (hR.refl _ _)).2.2 t own' e hexec
  | @commit i g a own held hi =>
    have hdone := h.safe i g _ own held hi s.shared h.inv (hR.refl _ _)
    refine h.set hR (hR.commit_inv g a held own s.shared h.inv hdone) (fun j y hj hy => ?_)
      (fun j y l _ _ hl => (by cases hl)) (fun g' p own₁ held₁ hx => (by cases hx))
      fun g' e hx => (by cases hx)
    refine hR.commit_rely g a held own s.shared y.held h.inv hdone fun l hl hheld => ?_
    exact hj (h.exclusive i j _ y l hi hy hheld hl).symm
  | @rollback i g e own held hi =>
    refine h.set hR h.inv (fun j y _ _ => hR.refl _ _) (fun j y l _ _ hl => (by cases hl))
      (fun g' p own₁ held₁ hx => (by cases hx)) fun g' e' hx => ?_
    cases hx
    exact h.safe i g _ own held hi
  | @abort i g p own held hi =>
    refine h.set hR h.inv (fun j y _ _ => hR.refl _ _) (fun j y l _ _ hl => (by cases hl))
      (fun g' p' own₁ held₁ hx => (by cases hx)) fun g' e' hx => ?_
    cases hx
    exact hR.aborted g
  | @tick t ht =>
    refine ⟨hR.tick_inv s.shared t h.inv ht, h.exclusive, fun j g p own held hj => ?_, h.holds,
      h.failed⟩
    exact (h.safe j g p own held hj).later hR (hR.tick_rely s.shared t held h.inv ht)

/-- **A system whose calls follow the rule stays good**, from a state without
sessions. -/
theorem Run.good (hR : R.Sound E)
    (hcall : ∀ g s, R.inv s → Safe E R g (R.done g) (prog g) [] (E.start s) s) {s₀ : σ}
    (h₀ : R.inv s₀) {s : Sys κ ρ ε σ τ ℓ γ α} (hrun : Run E prog ⟨s₀, []⟩ s) : s.Good E R := by
  induction hrun with
  | refl =>
    refine ⟨h₀, fun i j x y l hi => ?_, fun i g p own held hi => ?_,
      fun i g p own held hi => ?_, fun i g e hi => ?_⟩ <;> cases hi
  | tail _ hstep ih => exact ih.step hR hcall hstep

/-- What one step does, nobody who holds no lock was unprepared for. -/
theorem Sys.Good.rely (hR : R.Sound E) {s u : Sys κ ρ ε σ τ ℓ γ α} {a : Action γ}
    (h : s.Good E R) (hstep : Step E prog s a u) : R.rely [] s.shared u.shared := by
  cases hstep with
  | call g => exact hR.refl _ _
  | @exec i g c next own held t own' a hi hfree hexec =>
    have hrely := hR.exec_rely c s.shared own [] h.inv
    rw [hexec] at hrely
    exact hrely
  | @fail i g c next own held t own' e hi hfree hexec =>
    have hrely := hR.exec_rely c s.shared own [] h.inv
    rw [hexec] at hrely
    exact hrely
  | @commit i g a own held hi =>
    have hdone := h.safe i g _ own held hi s.shared h.inv (hR.refl _ _)
    exact hR.commit_rely g a held own s.shared [] h.inv hdone fun l hl => (by cases hl)
  | rollback _ => exact hR.refl _ _
  | abort _ => exact hR.refl _ _
  | tick ht => exact hR.tick_rely _ _ _ h.inv ht

theorem Sys.Good.run (hR : R.Sound E)
    (hcall : ∀ g s, R.inv s → Safe E R g (R.done g) (prog g) [] (E.start s) s)
    {s u : Sys κ ρ ε σ τ ℓ γ α} (h : s.Good E R) (hrun : Run E prog s u) :
    u.Good E R ∧ R.rely [] s.shared u.shared := by
  induction hrun with
  | refl => exact ⟨h, hR.refl _ _⟩
  | tail _ hstep ih =>
    obtain ⟨hgood, hrely⟩ := ih
    exact ⟨hgood.step hR hcall hstep, hR.trans _ _ _ _ hrely (hgood.rely hR hstep)⟩

/-! ## What a session is when it has ended -/

/-- A session that has ended stays as it is. -/
theorem Step.ended {s u : Sys κ ρ ε σ τ ℓ γ α} {a : Action γ} {i : ℕ} {o : Except ε α}
    (hstep : Step E prog s a u) (h : s.sessions[i]? = some (.ended g o)) :
    u.sessions[i]? = some (.ended g o) := by
  have hset : ∀ (j : ℕ) (x : Session κ ρ ε τ ℓ γ α) (y : Session κ ρ ε τ ℓ γ α),
      s.sessions[j]? = some y → (∀ g' o', y ≠ .ended g' o') →
      (s.sessions.set j x)[i]? = some (.ended g o) := by
    intro j x y hj hy
    rw [List.getElem?_set_ne]
    · exact h
    · rintro rfl
      rw [h, Option.some.injEq] at hj
      exact hy g o hj.symm
  cases hstep with
  | call g' => exact List.getElem?_append_left (List.getElem?_eq_some_iff.1 h).1 ▸ h
  | exec hi _ _ => exact hset _ _ _ hi (fun _ _ hy => (by cases hy))
  | fail hi _ _ => exact hset _ _ _ hi (fun _ _ hy => (by cases hy))
  | commit hi => exact hset _ _ _ hi (fun _ _ hy => (by cases hy))
  | rollback hi => exact hset _ _ _ hi (fun _ _ hy => (by cases hy))
  | abort hi => exact hset _ _ _ hi (fun _ _ hy => (by cases hy))
  | tick _ => exact h

theorem Run.ended {s u : Sys κ ρ ε σ τ ℓ γ α} {i : ℕ} {o : Except ε α} (hrun : Run E prog s u)
    (h : s.sessions[i]? = some (.ended g o)) : u.sessions[i]? = some (.ended g o) := by
  induction hrun with
  | refl => exact h
  | tail _ hstep ih => exact hstep.ended ih

theorem Run.trans {s t u : Sys κ ρ ε σ τ ℓ γ α} (h : Run E prog s t) (h' : Run E prog t u) :
    Run E prog s u := by
  induction h' with
  | refl => exact h
  | tail _ hstep ih => exact ih.tail hstep

/-! ## On its own -/

/-- Run a transaction with nobody else about: what comes of it, what it has written, and
the shared state. -/
def Trans.alone (E : Engine κ ρ ε σ τ ℓ) : Trans κ ρ ε α → τ → σ → Except ε α × τ × σ
  | ret a, own, s => (.ok a, own, s)
  | raise e, own, s => (.error e, own, s)
  | exec c next, own, s =>
    match E.exec c s own with
    | (t, own', .ok a) => (next a).alone E own' t
    | (t, own', .error e) => (.error e, own', t)

theorem Trans.alone_bind {p : Trans κ ρ ε β} {f : β → Trans κ ρ ε α} {b : β} {own own' : τ}
    {s t : σ} (h : p.alone E own s = (.ok b, own', t)) :
    (p >>= f).alone E own s = (f b).alone E own' t := by
  induction p generalizing own s with
  | ret a =>
    cases h
    rfl
  | raise e => cases h
  | exec c next ih =>
    rw [alone] at h
    show (Trans.exec c fun r => next r >>= f).alone E own s = _
    rw [alone]
    split at h
    · exact ih _ h
    · cases h

/-- Where nobody else holds a lock, a transaction can run to its end. -/
theorem Run.alone {p : Trans κ ρ ε α} {a : α} {s : Sys κ ρ ε σ τ ℓ γ α} {i : ℕ} {own own' : τ}
    {held : List ℓ} {t : σ} (hi : s.sessions[i]? = some (.running g p own held))
    (hfree : ∀ j x, j ≠ i → s.sessions[j]? = some x → x.held = [])
    (h : p.alone E own s.shared = (.ok a, own', t)) :
    Run E prog s ⟨E.commit own' t, s.sessions.set i (.ended g (.ok a))⟩ := by
  induction p generalizing s own held with
  | ret b =>
    cases h
    exact (Run.refl s).tail (.commit hi)
  | raise e => cases h
  | exec c next ih =>
    rw [Trans.alone] at h
    split at h
    · rename_i u own₁ r hexec
      have hnone : ∀ l ∈ E.locks c s.shared own, l ∉ s.heldBesides i := by
        intro l _ hl
        obtain ⟨j, x, hj, hx, hmem⟩ := Sys.mem_heldBesides.1 hl
        rw [hfree j x hj hx] at hmem
        cases hmem
      have hstep : Step E prog s (.exec i) _ := .exec hi hnone hexec
      have hi' := List.getElem?_set_self (List.getElem?_eq_some_iff.1 hi).1
        (a := Session.running g (next r) own₁ (held ++ E.locks c s.shared own))
      have hfree' : ∀ j x, j ≠ i → (s.sessions.set i (.running g (next r) own₁
          (held ++ E.locks c s.shared own)))[j]? = some x → x.held = [] := by
        intro j x hj hx
        rw [List.getElem?_set_ne (Ne.symm hj)] at hx
        exact hfree j x hj hx
      have hrest := ih r (s := ⟨u, _⟩) hi' hfree' h
      rw [List.set_set] at hrest
      exact Run.trans ((Run.refl s).tail hstep) hrest
    · cases h

/-! ## Waiting -/

/-- The session holds the lock. -/
def Sys.Held (s : Sys κ ρ ε σ τ ℓ γ α) (i : ℕ) (l : ℓ) : Prop :=
  ∃ x, s.sessions[i]? = some x ∧ l ∈ x.held

/-- The session runs the call, and its next statement asks for the lock. -/
def Sys.Asks (E : Engine κ ρ ε σ τ ℓ) (s : Sys κ ρ ε σ τ ℓ γ α) (i : ℕ) (g : γ) (l : ℓ) : Prop :=
  ∃ c next own held, s.sessions[i]? = some (.running g (.exec c next) own held) ∧
    l ∈ E.locks c s.shared own

/-- One session waits for another: its next statement asks for a lock that the other
holds. -/
def Sys.Waits (E : Engine κ ρ ε σ τ ℓ) (s : Sys κ ρ ε σ τ ℓ γ α) (i j : ℕ) : Prop :=
  i ≠ j ∧ ∃ g l, s.Asks E i g l ∧ s.Held j l

theorem Sys.Good.held_unique {s : Sys κ ρ ε σ τ ℓ γ α} (h : s.Good E R) {i j : ℕ} {l : ℓ}
    (hi : s.Held i l) (hj : s.Held j l) : i = j := by
  obtain ⟨x, hx, hlx⟩ := hi
  obtain ⟨y, hy, hly⟩ := hj
  exact h.exclusive i j x y l hx hy hlx hly

/-- What a session that asks for a lock holds, and that it may ask. -/
theorem Sys.Good.asks (hR : R.Sound E) {s : Sys κ ρ ε σ τ ℓ γ α} (h : s.Good E R) {i : ℕ} {l : ℓ}
    (hi : s.Asks E i g l) : ∃ held more, R.Holds g held ∧ R.asks g held more ∧ l ∈ more ∧
      ∀ l', s.Held i l' ↔ l' ∈ held := by
  obtain ⟨c, next, own, held, hi, hl⟩ := hi
  refine ⟨held, _, h.holds i g _ own held hi,
    (h.safe i g _ own held hi s.shared h.inv (hR.refl _ _)).1, hl, fun l' => ⟨?_, fun hl' => ?_⟩⟩
  · rintro ⟨x, hx, hl'⟩
    rw [hi, Option.some.injEq] at hx
    subst hx
    exact hl'
  · exact ⟨_, hi, hl'⟩

/-! ## Schedules -/

section

variable [DecidableEq ℓ]

/-- Run one action, if it can run. -/
def Sys.act (E : Engine κ ρ ε σ τ ℓ) (prog : γ → Trans κ ρ ε α) (s : Sys κ ρ ε σ τ ℓ γ α) :
    Action γ → Option (Sys κ ρ ε σ τ ℓ γ α)
  | .call g => some ⟨s.shared, s.sessions ++ [.running g (prog g) (E.start s.shared) []]⟩
  | .exec i =>
    match s.sessions[i]? with
    | some (.running g (.exec c next) own held) =>
      if ∀ l ∈ E.locks c s.shared own, l ∉ s.heldBesides i then
        match E.exec c s.shared own with
        | (t, own', .ok a) =>
          some ⟨t, s.sessions.set i (.running g (next a) own' (held ++ E.locks c s.shared own))⟩
        | (t, _, .error e) => some ⟨t, s.sessions.set i (.ended g (.error e))⟩
      else none
    | _ => none
  | .commit i =>
    match s.sessions[i]? with
    | some (.running g (.ret a) own _) =>
      some ⟨E.commit own s.shared, s.sessions.set i (.ended g (.ok a))⟩
    | _ => none
  | .rollback i =>
    match s.sessions[i]? with
    | some (.running g (.raise e) _ _) => some ⟨s.shared, s.sessions.set i (.ended g (.error e))⟩
    | _ => none
  | .abort i =>
    match s.sessions[i]? with
    | some (.running g _ _ _) =>
      some ⟨s.shared, s.sessions.set i (.ended g (.error E.aborted))⟩
    | _ => none
  | .tick => none

/-- Run a schedule. -/
def Sys.drive (E : Engine κ ρ ε σ τ ℓ) (prog : γ → Trans κ ρ ε α) (s : Sys κ ρ ε σ τ ℓ γ α) :
    List (Action γ) → Option (Sys κ ρ ε σ τ ℓ γ α)
  | [] => some s
  | a :: rest => (s.act E prog a).bind fun t => t.drive E prog rest

theorem Sys.act_step {s u : Sys κ ρ ε σ τ ℓ γ α} {a : Action γ} (h : s.act E prog a = some u) :
    Step E prog s a u := by
  cases a with
  | call g =>
    cases h
    exact .call g
  | exec i =>
    simp only [act] at h
    split at h
    · rename_i g c next own held hi
      split at h
      · rename_i hfree
        split at h
        · rename_i t own' a hexec
          cases h
          exact .exec hi hfree hexec
        · rename_i t own' e hexec
          cases h
          exact .fail hi hfree hexec
      · cases h
    · cases h
  | commit i =>
    simp only [act] at h
    split at h
    · rename_i g a own held hi
      cases h
      exact .commit hi
    · cases h
  | rollback i =>
    simp only [act] at h
    split at h
    · rename_i g e own held hi
      cases h
      exact .rollback hi
    · cases h
  | abort i =>
    simp only [act] at h
    split at h
    · rename_i g p own held hi
      cases h
      exact .abort hi
    · cases h
  | tick => cases h

/-- A schedule that runs through is a run. -/
theorem Sys.drive_run {s u : Sys κ ρ ε σ τ ℓ γ α} {schedule : List (Action γ)}
    (h : s.drive E prog schedule = some u) : Run E prog s u := by
  induction schedule generalizing s with
  | nil =>
    cases h
    exact .refl _
  | cons a rest ih =>
    obtain ⟨t, ht, hrest⟩ := Option.bind_eq_some_iff.1 h
    exact Run.trans ((Run.refl s).tail (act_step ht)) (ih hrest)

end

end Transactions
