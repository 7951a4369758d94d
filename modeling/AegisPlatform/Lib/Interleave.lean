import Mathlib.Logic.Relation
import Mathlib.Data.List.Basic

/-!
# Clients of a shared store, interleaved

A client is a program that alternates private computation with **transactions**
against a store it shares with any number of other clients.  Between two of its
transactions anything may happen to the store, so whatever a client read
earlier may be stale by the time it commits.

* `Proc` — a client program: return, raise, a read-only transaction, or a
  transaction that may change the store.  It is a monad with exceptions, so the
  programs of a model are written as the code they translate.
* `Store` — what a transaction does: it commits, it waits (`exec` is `none`), or
  it is aborted; between transactions the store may change on its own (`tick`,
  a clock for instance).
* `Sys`, `Step`, `Run` — the clients together with the store, one transaction
  at a time, in any order.
* `wp` — the rule for one client: the transactions it commits are `Legit`
  whatever legitimate transactions the others commit in between, and the value
  it ends with satisfies `Q` from then on.
* `Run.invariant` — what the rule buys: if every client obeys it, an invariant
  of the legitimate transactions holds in every state the system reaches.
* `Run.unchanged` — what a client that ends in a given way has done to the store.
* `Run.outcome` — what a client that follows the rule ends with.
* `Proc.Commits`, `Run.keeps_of_commits` — the rule for what depends on the
  transactions only, whatever the store answers.
* `Proc.Yields`, `Run.yields` — what a program may come to, and that clients come to nothing else.
* `Proc.alone` — a client with nobody else about.
* `Sys.drive` — a schedule, run; `Sys.drive_run` makes a run of it.
-/

namespace Interleave

variable {σ κ ρ ε α β : Type}

/-! ## Client programs -/

/-- A client program over a store `σ`: its transactions are named by `κ` and
answered in `ρ`; it raises in `ε` or returns an `α`. -/
inductive Proc (σ κ ρ ε α : Type) where
  /-- The program has returned. -/
  | ret (a : α)
  /-- The program has raised. -/
  | raise (e : ε)
  /-- A read-only transaction. -/
  | read (next : σ → Proc σ κ ρ ε α)
  /-- A transaction that may change the store. -/
  | commit (c : κ) (next : ρ → Proc σ κ ρ ε α)

namespace Proc

/-- Sequencing. -/
protected def bind : Proc σ κ ρ ε α → (α → Proc σ κ ρ ε β) → Proc σ κ ρ ε β
  | ret a, f => f a
  | raise e, _ => raise e
  | read next, f => read fun s => (next s).bind f
  | commit c next, f => commit c fun r => (next r).bind f

/-- Handling an exception. -/
protected def handle : Proc σ κ ρ ε α → (ε → Proc σ κ ρ ε α) → Proc σ κ ρ ε α
  | ret a, _ => ret a
  | raise e, h => h e
  | read next, h => read fun s => (next s).handle h
  | commit c next, h => commit c fun r => (next r).handle h

instance : Monad (Proc σ κ ρ ε) where
  pure := ret
  bind := Proc.bind

instance : MonadExceptOf ε (Proc σ κ ρ ε) where
  throw := raise
  tryCatch := Proc.handle

/-- A step of private computation. -/
def ofExcept : Except ε α → Proc σ κ ρ ε α
  | .ok a => ret a
  | .error e => raise e

/-- One read-only transaction. -/
def query (f : σ → α) : Proc σ κ ρ ε α := read fun s => ret (f s)

/-- One transaction whose answer may be an exception. -/
def txn (c : κ) : Proc σ κ (Except ε α) ε α := commit c ofExcept

@[simp] theorem pure_eq (a : α) : (pure a : Proc σ κ ρ ε α) = ret a := rfl

@[simp] theorem throw_eq (e : ε) : (throw e : Proc σ κ ρ ε α) = raise e := rfl

@[simp] theorem bind_eq (p : Proc σ κ ρ ε α) (f : α → Proc σ κ ρ ε β) : p >>= f = p.bind f := rfl

@[simp] theorem tryCatch_eq (p : Proc σ κ ρ ε α) (h : ε → Proc σ κ ρ ε α) :
    tryCatch p h = p.handle h := rfl

end Proc

/-! ## The store and the system -/

/-- What transactions do to a store.  `exec c s = none` means that `c` has to
wait in `s`; `abort` is what the store does when it gives a waiting or running
transaction up, with the answer its client sees. -/
structure Store (σ κ ρ : Type) where
  /-- Run a transaction to its end, if it need not wait. -/
  exec : κ → σ → Option (σ × ρ)
  /-- Give a transaction up. -/
  abort : κ → σ → σ × ρ
  /-- What the store does on its own. -/
  tick : σ → σ → Prop

/-- A store and the clients using it, those that have finished included. -/
structure Sys (σ κ ρ ε α : Type) where
  /-- The shared store. -/
  store : σ
  /-- The clients, in the order in which they were called. -/
  procs : List (Proc σ κ ρ ε α)

/-- What one step of the system does, and which client does it. -/
inductive Action (κ : Type) where
  | call
  | read (i : ℕ)
  | commit (i : ℕ) (c : κ)
  | abort (i : ℕ) (c : κ)
  | tick

/-- One step: a client is called, or some client's next transaction is read,
committed or aborted, or the store moves on its own. -/
inductive Step (S : Store σ κ ρ) (Calls : Sys σ κ ρ ε α → Proc σ κ ρ ε α → Prop) :
    Sys σ κ ρ ε α → Action κ → Sys σ κ ρ ε α → Prop
  | call {s : Sys σ κ ρ ε α} {p : Proc σ κ ρ ε α} : Calls s p →
      Step S Calls s .call ⟨s.store, s.procs ++ [p]⟩
  | read {s : Sys σ κ ρ ε α} {i : ℕ} {next : σ → Proc σ κ ρ ε α} :
      s.procs[i]? = some (.read next) →
      Step S Calls s (.read i) ⟨s.store, s.procs.set i (next s.store)⟩
  | commit {s : Sys σ κ ρ ε α} {i : ℕ} {c : κ} {next : ρ → Proc σ κ ρ ε α} {t : σ} {r : ρ} :
      s.procs[i]? = some (.commit c next) → S.exec c s.store = some (t, r) →
      Step S Calls s (.commit i c) ⟨t, s.procs.set i (next r)⟩
  | abort {s : Sys σ κ ρ ε α} {i : ℕ} {c : κ} {next : ρ → Proc σ κ ρ ε α} :
      s.procs[i]? = some (.commit c next) →
      Step S Calls s (.abort i c)
        ⟨(S.abort c s.store).1, s.procs.set i (next (S.abort c s.store).2)⟩
  | tick {s : Sys σ κ ρ ε α} {t : σ} : S.tick s.store t → Step S Calls s .tick ⟨t, s.procs⟩

/-- A run all of whose steps meet a condition on the system before the step and
on the action. -/
inductive Run (S : Store σ κ ρ) (Calls : Sys σ κ ρ ε α → Proc σ κ ρ ε α → Prop)
    (Meets : Sys σ κ ρ ε α → Action κ → Prop) : Sys σ κ ρ ε α → Sys σ κ ρ ε α → Prop
  | refl (s : Sys σ κ ρ ε α) : Run S Calls Meets s s
  | tail {s t u : Sys σ κ ρ ε α} {a : Action κ} : Run S Calls Meets s t →
      Step S Calls t a u → Meets t a → Run S Calls Meets s u

theorem Run.trans {S : Store σ κ ρ} {Calls : Sys σ κ ρ ε α → Proc σ κ ρ ε α → Prop}
    {Meets : Sys σ κ ρ ε α → Action κ → Prop} {s t u : Sys σ κ ρ ε α} (h₁ : Run S Calls Meets s t)
    (h₂ : Run S Calls Meets t u) : Run S Calls Meets s u := by
  induction h₂ with
  | refl => exact h₁
  | tail _ hstep hm ih => exact ih.tail hstep hm

/-- A condition on the steps can be dropped. -/
theorem Run.mono {S : Store σ κ ρ} {Calls : Sys σ κ ρ ε α → Proc σ κ ρ ε α → Prop}
    {Meets Meets' : Sys σ κ ρ ε α → Action κ → Prop} {s t : Sys σ κ ρ ε α}
    (h : Run S Calls Meets s t) (hM : ∀ s a, Meets s a → Meets' s a) : Run S Calls Meets' s t := by
  induction h with
  | refl => exact .refl _
  | tail _ hstep hm ih => exact ih.tail hstep (hM _ _ hm)

/-- A run of some clients is a run of more. -/
theorem Run.of_calls {S : Store σ κ ρ} {Calls Calls' : Sys σ κ ρ ε α → Proc σ κ ρ ε α → Prop}
    {Meets : Sys σ κ ρ ε α → Action κ → Prop} {s t : Sys σ κ ρ ε α}
    (h : Run S Calls Meets s t) (hcalls : ∀ s p, Calls s p → Calls' s p) :
    Run S Calls' Meets s t := by
  induction h with
  | refl => exact .refl _
  | tail _ hstep hm ih =>
    refine ih.tail ?_ hm
    cases hstep with
    | call hp => exact .call (hcalls _ _ hp)
    | read hi => exact .read hi
    | commit hi hexec => exact .commit hi hexec
    | abort hi => exact .abort hi
    | tick ht => exact .tick ht

/-- What every transaction keeps, whoever commits it, a run keeps. -/
theorem Run.keeps {S : Store σ κ ρ} {Calls : Sys σ κ ρ ε α → Proc σ κ ρ ε α → Prop}
    {Meets : Sys σ κ ρ ε α → Action κ → Prop} {I : σ → Prop}
    (hexec : ∀ c s t r, I s → S.exec c s = some (t, r) → I t)
    (habort : ∀ c s, I s → I (S.abort c s).1) (htick : ∀ s t, I s → S.tick s t → I t)
    {s t : Sys σ κ ρ ε α} (h : Run S Calls Meets s t) (hs : I s.store) : I t.store := by
  induction h with
  | refl => exact hs
  | tail _ hstep _ ih =>
    cases hstep with
    | call _ => exact ih
    | read _ => exact ih
    | commit _ hc => exact hexec _ _ _ _ ih hc
    | abort _ => exact habort _ _ ih
    | tick ht => exact htick _ _ ih ht

/-! ## The rule for one client -/

section Rule

variable (S : Store σ κ ρ) (Legit : κ → σ → Prop)

/-- A move of the store that some client following the rule may cause: a legitimate
transaction commits, any transaction is given up, or the store moves by itself. -/
def Move (s t : σ) : Prop :=
  (∃ c r, Legit c s ∧ S.exec c s = some (t, r)) ∨ (∃ c, (S.abort c s).1 = t) ∨ S.tick s t

/-- Any number of moves: what may happen between two transactions of a client. -/
def Moves : σ → σ → Prop := Relation.ReflTransGen (Move S Legit)

/-- From `s` on, and whatever the others do, the program commits only
legitimate transactions, and its outcome satisfies `Q` from the moment it is
there. -/
def wp (Q : Except ε α → σ → Prop) : Proc σ κ ρ ε α → σ → Prop
  | .ret a, s => ∀ t, Moves S Legit s t → Q (.ok a) t
  | .raise e, s => ∀ t, Moves S Legit s t → Q (.error e) t
  | .read next, s => ∀ t, Moves S Legit s t → wp Q (next t) t
  | .commit c next, s => ∀ t, Moves S Legit s t →
      Legit c t ∧ (∀ u r, S.exec c t = some (u, r) → wp Q (next r) u) ∧
        wp Q (next (S.abort c t).2) (S.abort c t).1

variable {S Legit}

theorem Moves.refl (s : σ) : Moves S Legit s s := Relation.ReflTransGen.refl

theorem Moves.trans {s t u : σ} (h₁ : Moves S Legit s t) (h₂ : Moves S Legit t u) :
    Moves S Legit s u := Relation.ReflTransGen.trans h₁ h₂

/-- What every move keeps, any number of moves keeps. -/
theorem Moves.keeps {I : σ → Prop} (hmove : ∀ s t, I s → Move S Legit s t → I t) {s t : σ}
    (h : Moves S Legit s t) (hs : I s) : I t := by
  induction h with
  | refl => exact hs
  | tail _ hlast ih => exact hmove _ _ ih hlast

/-- The rule is about the future only, so it survives what the others do. -/
theorem wp_moves {Q : Except ε α → σ → Prop} {p : Proc σ κ ρ ε α} {s t : σ}
    (h : wp S Legit Q p s) (hm : Moves S Legit s t) : wp S Legit Q p t := by
  cases p with
  | ret a => exact fun u hu => h u (hm.trans hu)
  | raise e => exact fun u hu => h u (hm.trans hu)
  | read next => exact fun u hu => h u (hm.trans hu)
  | commit c next => exact fun u hu => h u (hm.trans hu)

theorem wp_mono {Q Q' : Except ε α → σ → Prop} (hQ : ∀ r s, Q r s → Q' r s)
    (p : Proc σ κ ρ ε α) {s : σ} (h : wp S Legit Q p s) : wp S Legit Q' p s := by
  induction p generalizing s with
  | ret a => exact fun t ht => hQ _ _ (h t ht)
  | raise e => exact fun t ht => hQ _ _ (h t ht)
  | read next ih => exact fun t ht => ih t (h t ht)
  | commit c next ih =>
    intro t ht
    obtain ⟨hc, hexec, habort⟩ := h t ht
    exact ⟨hc, fun u r hu => ih r (hexec u r hu), ih _ habort⟩

/-- The outcome is judged in a state that came later. -/
theorem wp_later {Q : Except ε α → σ → Prop} (p : Proc σ κ ρ ε α) {s : σ}
    (h : wp S Legit Q p s) : wp S Legit (fun r t => Q r t ∧ Moves S Legit s t) p s := by
  induction p generalizing s with
  | ret a => exact fun t ht => ⟨h t ht, ht⟩
  | raise e => exact fun t ht => ⟨h t ht, ht⟩
  | read next ih =>
    exact fun t ht => wp_mono (fun _ _ hr => ⟨hr.1, ht.trans hr.2⟩) _ (ih t (h t ht))
  | commit c next ih =>
    intro t ht
    obtain ⟨hc, hexec, habort⟩ := h t ht
    refine ⟨hc, fun u r hu => ?_, ?_⟩
    · have hm : Moves S Legit s u := ht.tail (Or.inl ⟨c, r, hc, hu⟩)
      exact wp_mono (fun _ _ hr => ⟨hr.1, hm.trans hr.2⟩) _ (ih r (hexec u r hu))
    · have hm : Moves S Legit s (S.abort c t).1 := ht.tail (Or.inr (Or.inl ⟨c, rfl⟩))
      exact wp_mono (fun _ _ hr => ⟨hr.1, hm.trans hr.2⟩) _ (ih _ habort)

/-- Sequencing: the rest is judged from where the first part left the store. -/
theorem wp_bind {Q : Except ε β → σ → Prop} {f : α → Proc σ κ ρ ε β} (p : Proc σ κ ρ ε α) {s : σ}
    (h : wp S Legit (fun r t => match r with
      | .ok a => wp S Legit Q (f a) t
      | .error e => Q (.error e) t) p s) : wp S Legit Q (p.bind f) s := by
  induction p generalizing s with
  | ret a => exact h s (Moves.refl s)
  | raise e => exact h
  | read next ih => exact fun t ht => ih t (h t ht)
  | commit c next ih =>
    intro t ht
    obtain ⟨hc, hexec, habort⟩ := h t ht
    exact ⟨hc, fun u r hu => ih r (hexec u r hu), ih _ habort⟩

/-- Handling: the handler is judged from where the exception left the store. -/
theorem wp_handle {Q : Except ε α → σ → Prop} {f : ε → Proc σ κ ρ ε α} (p : Proc σ κ ρ ε α) {s : σ}
    (h : wp S Legit (fun r t => match r with
      | .ok a => Q (.ok a) t
      | .error e => wp S Legit Q (f e) t) p s) : wp S Legit Q (p.handle f) s := by
  induction p generalizing s with
  | ret a => exact h
  | raise e => exact h s (Moves.refl s)
  | read next ih => exact fun t ht => ih t (h t ht)
  | commit c next ih =>
    intro t ht
    obtain ⟨hc, hexec, habort⟩ := h t ht
    exact ⟨hc, fun u r hu => ih r (hexec u r hu), ih _ habort⟩

theorem wp_ofExcept {Q : Except ε α → σ → Prop} {x : Except ε α} {s : σ}
    (h : ∀ t, Moves S Legit s t → Q x t) : wp S Legit Q (Proc.ofExcept x) s := by
  cases x with
  | ok a => exact h
  | error e => exact h

/-- A check: what it raises satisfies `Q`, and the rest is judged for the value it lets
through. -/
theorem wp_check {Q : Except ε β → σ → Prop} {x : Except ε α} {f : α → Proc σ κ ρ ε β}
    {s : σ} (herr : ∀ e, x = .error e → ∀ t, Q (.error e) t)
    (h : ∀ a, x = .ok a → wp S Legit Q (f a) s) : wp S Legit Q ((Proc.ofExcept x).bind f) s := by
  cases x with
  | ok a => exact h a rfl
  | error e => exact fun t _ => herr e rfl t

/-- A check, where whatever it raises satisfies `Q`. -/
theorem wp_ofExcept_bind {Q : Except ε β → σ → Prop} {x : Except ε α} {f : α → Proc σ κ ρ ε β}
    {s : σ} (herr : ∀ e t, Q (.error e) t) (h : ∀ a, x = .ok a → wp S Legit Q (f a) s) :
    wp S Legit Q ((Proc.ofExcept x).bind f) s := wp_check (fun e _ => herr e) h

/-- A check that passes. -/
theorem wp_passed {Q : Except ε β → σ → Prop} {x : Except ε α} {f : α → Proc σ κ ρ ε β} {a : α}
    {s : σ} (hx : x = .ok a) (h : wp S Legit Q (f a) s) :
    wp S Legit Q ((Proc.ofExcept x).bind f) s := by
  rw [hx]
  exact h

/-- A read: the rest is judged from the state that was read. -/
theorem wp_query_bind {Q : Except ε β → σ → Prop} {g : σ → α} {f : α → Proc σ κ ρ ε β} {s : σ}
    (h : ∀ t, Moves S Legit s t → wp S Legit Q (f (g t)) t) :
    wp S Legit Q ((Proc.query g).bind f) s :=
  fun t ht => h t ht

end Rule

/-- A transaction: it is legitimate wherever it runs, and its answer satisfies
`Q` from then on. -/
theorem wp_txn {S : Store σ κ (Except ε α)} {Legit : κ → σ → Prop} {Q : Except ε α → σ → Prop}
    {c : κ} {s : σ} (hc : ∀ t, Moves S Legit s t → Legit c t)
    (hexec : ∀ t u r v, Moves S Legit s t → S.exec c t = some (u, r) → Moves S Legit u v → Q r v)
    (habort : ∀ t v, Moves S Legit s t → Moves S Legit (S.abort c t).1 v →
      Q (S.abort c t).2 v) :
    wp S Legit Q (Proc.txn c) s := by
  intro t ht
  refine ⟨hc t ht, fun u r hu => wp_ofExcept fun v hv => hexec t u r v ht hu hv, ?_⟩
  exact wp_ofExcept fun v hv => habort t v ht hv

/-! ## What the rule buys for whole runs -/

section Runs

variable {S : Store σ κ ρ} {Calls : Sys σ κ ρ ε α → Proc σ κ ρ ε α → Prop} {Legit : κ → σ → Prop}
  {Meets : Sys σ κ ρ ε α → Action κ → Prop} {Q : Except ε α → σ → Prop}

/-- Every client of the system follows the rule. -/
def Sys.Follows (S : Store σ κ ρ) (Legit : κ → σ → Prop) (Q : Except ε α → σ → Prop)
    (s : Sys σ κ ρ ε α) : Prop := ∀ p ∈ s.procs, wp S Legit Q p s.store

theorem Sys.Follows.set {s : Sys σ κ ρ ε α} (h : s.Follows S Legit Q) {t : σ} {i : ℕ}
    {q : Proc σ κ ρ ε α} (hm : Moves S Legit s.store t) (hq : wp S Legit Q q t) :
    Sys.Follows S Legit Q ⟨t, s.procs.set i q⟩ := by
  intro p hp
  rcases List.mem_or_eq_of_mem_set hp with hp | rfl
  · exact wp_moves (h p hp) hm
  · exact hq

/-- A transaction that a client following the rule is about to run is
legitimate. -/
theorem Sys.Follows.legit {s : Sys σ κ ρ ε α} (h : s.Follows S Legit Q) {i : ℕ} {c : κ}
    {next : ρ → Proc σ κ ρ ε α} (hi : s.procs[i]? = some (.commit c next)) : Legit c s.store :=
  (h _ (List.mem_of_getElem? hi) s.store (Moves.refl _)).1

/-- A step of a system whose clients follow the rule moves the store by a
legitimate transaction, an abort or a tick, or not at all, and its clients
still follow the rule. -/
theorem Sys.Follows.step {s u : Sys σ κ ρ ε α} {a : Action κ} (h : s.Follows S Legit Q)
    (hcall : ∀ p, Calls s p → wp S Legit Q p s.store) (hstep : Step S Calls s a u) :
    u.Follows S Legit Q ∧ (u.store = s.store ∨
      (∃ i c r, a = .commit i c ∧ Legit c s.store ∧ S.exec c s.store = some (u.store, r)) ∨
      (∃ i c, a = .abort i c ∧ Legit c s.store ∧ (S.abort c s.store).1 = u.store) ∨
      S.tick s.store u.store) := by
  cases hstep with
  | @call p hp =>
    refine ⟨fun q hq => ?_, Or.inl rfl⟩
    rcases List.mem_append.1 hq with hq | hq
    · exact h q hq
    · rw [List.mem_singleton.1 hq]; exact hcall p hp
  | @read i next hi =>
    have hw := h _ (List.mem_of_getElem? hi) s.store (Moves.refl _)
    exact ⟨h.set (Moves.refl _) hw, Or.inl rfl⟩
  | @commit i c next t r hi hexec =>
    obtain ⟨hc, hnext, -⟩ := h _ (List.mem_of_getElem? hi) s.store (Moves.refl _)
    have hm : Moves S Legit s.store t := .single (Or.inl ⟨c, r, hc, hexec⟩)
    exact ⟨h.set hm (hnext t r hexec), Or.inr (Or.inl ⟨i, c, r, rfl, hc, hexec⟩)⟩
  | @abort i c next hi =>
    obtain ⟨hc, -, hnext⟩ := h _ (List.mem_of_getElem? hi) s.store (Moves.refl _)
    have hm : Moves S Legit s.store (S.abort c s.store).1 :=
      .single (Or.inr (Or.inl ⟨c, rfl⟩))
    exact ⟨h.set hm hnext, Or.inr (Or.inr (Or.inl ⟨i, c, rfl, hc, rfl⟩))⟩
  | @tick t ht =>
    refine ⟨fun p hp => wp_moves (h p hp) (.single (Or.inr (Or.inr ht))), ?_⟩
    exact Or.inr (Or.inr (Or.inr ht))

/-- **Invariants of the legitimate transactions are invariants of the system.**
An invariant that every legitimate transaction meeting the condition keeps, and
that aborts and ticks keep, holds in every state of every run whose steps meet
the condition, provided every client that is called follows the rule. -/
theorem Run.invariant {I : σ → Prop} {s₀ s : Sys σ κ ρ ε α} (hrun : Run S Calls Meets s₀ s)
    (h₀ : I s₀.store) (hf₀ : s₀.Follows S Legit Q)
    (hcall : ∀ s p, I s.store → s.Follows S Legit Q → Calls s p → wp S Legit Q p s.store)
    (hcommit : ∀ s i t c r, I s.store → Legit c s.store → Meets s (.commit i c) →
      S.exec c s.store = some (t, r) → I t)
    (habort : ∀ s c, I s → Legit c s → I (S.abort c s).1)
    (htick : ∀ s t, I s → S.tick s t → I t) : I s.store ∧ s.Follows S Legit Q := by
  induction hrun with
  | refl => exact ⟨h₀, hf₀⟩
  | tail _ hstep hm ih =>
    obtain ⟨hI, hf⟩ := ih
    obtain ⟨hf', hmove⟩ := hf.step (fun p hp => hcall _ p hI hf hp) hstep
    refine ⟨?_, hf'⟩
    rcases hmove with heq | ⟨i, c, r, rfl, hc, hexec⟩ | ⟨i, c, rfl, hc, heq⟩ | ht
    · rw [heq]; exact hI
    · exact hcommit _ i _ c r hI hc hm hexec
    · rw [← heq]; exact habort _ c hI hc
    · exact htick _ _ hI ht

end Runs

/-! ## What one client does -/

section Client

variable {S : Store σ κ ρ} {Calls : Sys σ κ ρ ε α → Proc σ κ ρ ε α → Prop}
  {Meets : Sys σ κ ρ ε α → Action κ → Prop}

/-- A fact about programs that survives their own transactions, whatever these are
answered with. -/
structure Proc.Kept (S : Store σ κ ρ) (I : Proc σ κ ρ ε α → Prop) : Prop where
  read : ∀ next, I (.read next) → ∀ s, I (next s)
  exec : ∀ c next s t r, I (.commit c next) → S.exec c s = some (t, r) → I (next r)
  abort : ∀ c next s, I (.commit c next) → I (next (S.abort c s).2)

theorem Step.client {I : Proc σ κ ρ ε α → Prop} (hI : Proc.Kept S I) {s u : Sys σ κ ρ ε α}
    {a : Action κ} (hstep : Step S Calls s a u) {i : ℕ} {p : Proc σ κ ρ ε α}
    (hi : s.procs[i]? = some p) (hp : I p) : ∃ p', u.procs[i]? = some p' ∧ I p' := by
  have hset : ∀ {j : ℕ} {q q' : Proc σ κ ρ ε α}, s.procs[j]? = some q → (I q → I q') →
      ∃ p', (s.procs.set j q')[i]? = some p' ∧ I p' := by
    intro j q q' hj hq
    by_cases hij : j = i
    · subst hij
      rw [hi] at hj
      cases hj
      have hlt : j < s.procs.length := (List.getElem?_eq_some_iff.1 hi).1
      exact ⟨q', by simp [hlt], hq hp⟩
    · exact ⟨p, by rw [List.getElem?_set_ne hij]; exact hi, hp⟩
  cases hstep with
  | call _ =>
    refine ⟨p, ?_, hp⟩
    rw [List.getElem?_append_left (List.getElem?_eq_some_iff.1 hi).1]
    exact hi
  | read hj => exact hset hj fun h => hI.read _ h _
  | commit hj hexec => exact hset hj fun h => hI.exec _ _ _ _ _ h hexec
  | abort hj => exact hset hj fun h => hI.abort _ _ _ h
  | tick _ => exact ⟨p, hi, hp⟩

/-- What survives the program's own transactions survives a run. -/
theorem Run.client {I : Proc σ κ ρ ε α → Prop} (hI : Proc.Kept S I) {s t : Sys σ κ ρ ε α}
    (hrun : Run S Calls Meets s t) {i : ℕ} {p : Proc σ κ ρ ε α} (hi : s.procs[i]? = some p)
    (hp : I p) : ∃ p', t.procs[i]? = some p' ∧ I p' := by
  induction hrun with
  | refl => exact ⟨p, hi, hp⟩
  | tail _ hstep _ ih =>
    obtain ⟨p', hi', hp'⟩ := ih
    exact hstep.client hI hi' hp'

/-- Every outcome the program may still have satisfies `P`. -/
def Proc.Ends (P : Except ε α → Prop) : Proc σ κ ρ ε α → Prop
  | .ret a => P (.ok a)
  | .raise e => P (.error e)
  | .read next => ∀ s, (next s).Ends P
  | .commit _ next => ∀ r, (next r).Ends P

/-- A transaction of the program leaves the store the `Same`, or every outcome the
program may then have satisfies `P`. -/
def Proc.ChangesFor (S : Store σ κ ρ) (Same : σ → σ → Prop) (P : Except ε α → Prop) :
    Proc σ κ ρ ε α → Prop
  | .ret _ => True
  | .raise _ => True
  | .read next => ∀ s, (next s).ChangesFor S Same P
  | .commit c next =>
    (∀ s t r, S.exec c s = some (t, r) →
      (Same s t ∨ (next r).Ends P) ∧ (next r).ChangesFor S Same P) ∧
    ∀ s, (Same s (S.abort c s).1 ∨ (next (S.abort c s).2).Ends P) ∧
      (next (S.abort c s).2).ChangesFor S Same P

theorem Proc.kept_ends (P : Except ε α → Prop) :
    Proc.Kept S (fun p : Proc σ κ ρ ε α => p.Ends P) where
  read := fun _ h => h
  exec := fun _ _ _ _ r h _ => h r
  abort := fun _ _ _ h => h _

theorem Proc.kept_changesFor (Same : σ → σ → Prop) (P : Except ε α → Prop) :
    Proc.Kept S (fun p : Proc σ κ ρ ε α => p.ChangesFor S Same P) where
  read := fun _ h => h
  exec := fun _ _ s t r h hexec => (h.1 s t r hexec).2
  abort := fun _ _ s h => (h.2 s).2

/-- A program that only reads. -/
def Proc.ReadOnly : Proc σ κ ρ ε α → Prop
  | .ret _ => True
  | .raise _ => True
  | .read next => ∀ s, (next s).ReadOnly
  | .commit _ _ => False

theorem Proc.readOnly_ofExcept (x : Except ε α) : (ofExcept x : Proc σ κ ρ ε α).ReadOnly := by
  cases x <;> trivial

theorem Proc.readOnly_query (f : σ → α) : (query f : Proc σ κ ρ ε α).ReadOnly := fun _ => trivial

theorem Proc.readOnly_bind {p : Proc σ κ ρ ε α} {f : α → Proc σ κ ρ ε β} (hp : p.ReadOnly)
    (hf : ∀ a, (f a).ReadOnly) : (p.bind f).ReadOnly := by
  induction p with
  | ret a => exact hf a
  | raise e => trivial
  | read next ih => exact fun s => ih s (hp s)
  | commit c next => exact hp.elim

theorem Proc.readOnly_handle {p : Proc σ κ ρ ε α} {f : ε → Proc σ κ ρ ε α} (hp : p.ReadOnly)
    (hf : ∀ e, (f e).ReadOnly) : (p.handle f).ReadOnly := by
  induction p with
  | ret a => trivial
  | raise e => exact hf e
  | read next ih => exact fun s => ih s (hp s)
  | commit c next => exact hp.elim

theorem Proc.ReadOnly.changesFor {Same : σ → σ → Prop} {P : Except ε α → Prop}
    {p : Proc σ κ ρ ε α} (hp : p.ReadOnly) : p.ChangesFor S Same P := by
  induction p with
  | ret a => trivial
  | raise e => trivial
  | read next ih => exact fun s => ih s (hp s)
  | commit c next => exact hp.elim

/-- What a program reads first does not matter. -/
theorem Proc.changesFor_bind {Same : σ → σ → Prop} {P : Except ε β → Prop}
    {p : Proc σ κ ρ ε α} {f : α → Proc σ κ ρ ε β} (hp : p.ReadOnly)
    (hf : ∀ a, (f a).ChangesFor S Same P) : (p.bind f).ChangesFor S Same P := by
  induction p with
  | ret a => exact hf a
  | raise e => trivial
  | read next ih => exact fun s => ih s (hp s)
  | commit c next => exact hp.elim

theorem Proc.ends_map {P : Except ε β → Prop} {p : Proc σ κ ρ ε α} {f : α → β}
    (hp : p.Ends fun o => P (o.map f)) : (p.bind fun a => ret (f a)).Ends P := by
  induction p with
  | ret a => exact hp
  | raise e => exact hp
  | read next ih => exact fun s => ih s (hp s)
  | commit c next ih => exact fun r => ih r (hp r)

theorem Proc.changesFor_map {Same : σ → σ → Prop} {P : Except ε β → Prop}
    {p : Proc σ κ ρ ε α} {f : α → β} (hp : p.ChangesFor S Same fun o => P (o.map f)) :
    (p.bind fun a => ret (f a)).ChangesFor S Same P := by
  induction p with
  | ret a => trivial
  | raise e => trivial
  | read next ih => exact fun s => ih s (hp s)
  | commit c next ih =>
    refine ⟨fun s t r hexec => ?_, fun s => ?_⟩
    · obtain ⟨hsame, hrest⟩ := hp.1 s t r hexec
      exact ⟨hsame.imp id Proc.ends_map, ih r hrest⟩
    · obtain ⟨hsame, hrest⟩ := hp.2 s
      exact ⟨hsame.imp id Proc.ends_map, ih _ hrest⟩

/-- **A client that ends without `P` has changed nothing.**  Whatever the others do,
each of its transactions left the store the same. -/
theorem Run.unchanged {Same : σ → σ → Prop} {P : Except ε α → Prop} {s t u v : Sys σ κ ρ ε α}
    {i : ℕ} {p : Proc σ κ ρ ε α} {a : Action κ} {c : κ} (hi : s.procs[i]? = some p)
    (hp : p.ChangesFor S Same P) (hrun : Run S Calls Meets s t) (hstep : Step S Calls t a u)
    (ha : a = .commit i c ∨ a = .abort i c) (hrun' : Run S Calls Meets u v) {o : Except ε α}
    (hdone : v.procs[i]? = some (Proc.ofExcept o)) (ho : ¬ P o) : Same t.store u.store := by
  obtain ⟨q, hq, hqp⟩ := hrun.client (Proc.kept_changesFor Same P) hi hp
  have hends : ∀ {q' : Proc σ κ ρ ε α}, u.procs[i]? = some q' → ¬ q'.Ends P := by
    intro q' hq' hends
    obtain ⟨q'', hq'', hends'⟩ := hrun'.client (Proc.kept_ends P) hq' hends
    rw [hdone] at hq''
    cases hq''
    cases o <;> exact ho hends'
  have hset : ∀ q' : Proc σ κ ρ ε α, (t.procs.set i q')[i]? = some q' := fun q' => by
    simp [(List.getElem?_eq_some_iff.1 hq).1]
  rcases ha with rfl | rfl
  · cases hstep with
    | commit hj hexec =>
      rw [hq] at hj
      cases hj
      exact (hqp.1 _ _ _ hexec).1.resolve_right (hends (hset _))
  · cases hstep with
    | abort hj =>
      rw [hq] at hj
      cases hj
      exact (hqp.2 _).1.resolve_right (hends (hset _))

end Client

/-! ## What one client ends with -/

section Outcome

variable {S : Store σ κ ρ} {Calls : Sys σ κ ρ ε α → Proc σ κ ρ ε α → Prop} {Legit : κ → σ → Prop}
  {Meets : Sys σ κ ρ ε α → Action κ → Prop} {Q : Except ε α → σ → Prop} {s t u : Sys σ κ ρ ε α}
  {i : ℕ} {p : Proc σ κ ρ ε α} {a : Action κ}

/-- A fact that every legitimate move keeps holds of whatever a program ends with, provided
all its transactions are legitimate. -/
theorem wp_of_stable {I : σ → Prop} (hI : ∀ s t, I s → Move S Legit s t → I t)
    (hlegit : ∀ c s, Legit c s) (p : Proc σ κ ρ ε α) {s : σ} (hs : I s) :
    wp S Legit (fun _ t => I t) p s := by
  induction p generalizing s with
  | ret a => exact fun t ht => ht.keeps hI hs
  | raise e => exact fun t ht => ht.keeps hI hs
  | read next ih => exact fun t ht => ih t (ht.keeps hI hs)
  | commit c next ih =>
    intro t ht
    have hIt := ht.keeps hI hs
    refine ⟨hlegit c t, fun u r hu => ih r (hI t u hIt (Or.inl ⟨c, r, hlegit c t, hu⟩)), ?_⟩
    exact ih _ (hI t _ hIt (Or.inr (Or.inl ⟨c, rfl⟩)))

/-- The steps of the others are moves, so a client that follows the rule goes on following
it. -/
theorem Step.follows (hi : s.procs[i]? = some p) (hp : wp S Legit Q p s.store)
    (hlegit : ∀ j c, a = .commit j c → Legit c s.store)
    (hstep : Step S Calls s a u) : ∃ p', u.procs[i]? = some p' ∧ wp S Legit Q p' u.store := by
  have hlength : i < s.procs.length := (List.getElem?_eq_some_iff.1 hi).1
  -- what becomes of the client, if the step is its own or another's
  have hset : ∀ {j : ℕ} {q q' : Proc σ κ ρ ε α} {t : σ}, s.procs[j]? = some q →
      Moves S Legit s.store t → (wp S Legit Q q s.store → wp S Legit Q q' t) →
      ∃ p', (s.procs.set j q')[i]? = some p' ∧ wp S Legit Q p' t := by
    intro j q q' t hj hm hq
    by_cases hij : j = i
    · subst hij
      rw [hi] at hj
      cases hj
      exact ⟨q', by simp [hlength], hq hp⟩
    · exact ⟨p, by rw [List.getElem?_set_ne hij]; exact hi, wp_moves hp hm⟩
  cases hstep with
  | call _ => exact ⟨p, by rw [List.getElem?_append_left hlength]; exact hi, hp⟩
  | read hj => exact hset hj (Moves.refl _) fun h => h s.store (Moves.refl _)
  | @commit j c next t r hj hexec =>
    have hm : Moves S Legit s.store t :=
      .single (Or.inl ⟨c, r, hlegit j c rfl, hexec⟩)
    exact hset hj hm fun h => (h s.store (Moves.refl _)).2.1 t r hexec
  | @abort j c next hj =>
    have hm : Moves S Legit s.store (S.abort c s.store).1 :=
      .single (Or.inr (Or.inl ⟨c, rfl⟩))
    exact hset hj hm fun h => (h s.store (Moves.refl _)).2.2
  | tick ht => exact ⟨p, hi, wp_moves hp (.single (Or.inr (Or.inr ht)))⟩

/-- What a run does to the store is moves, if every transaction that commits in it is
legitimate. -/
theorem Run.moves (hlegit : ∀ s j c, Meets s (.commit j c) → Legit c s.store)
    (hrun : Run S Calls Meets s t) : Moves S Legit s.store t.store := by
  induction hrun with
  | refl => exact Moves.refl _
  | tail _ hstep hm ih =>
    refine ih.trans ?_
    cases hstep with
    | call _ => exact Moves.refl _
    | read _ => exact Moves.refl _
    | commit _ hexec => exact .single (Or.inl ⟨_, _, hlegit _ _ _ hm, hexec⟩)
    | abort _ => exact .single (Or.inr (Or.inl ⟨_, rfl⟩))
    | tick ht => exact .single (Or.inr (Or.inr ht))

/-- **What a client ends with satisfies `Q`**, if it followed the rule when it was called and
every transaction that commits in the run is legitimate. -/
theorem Run.outcome (hlegit : ∀ s j c, Meets s (.commit j c) → Legit c s.store)
    (hrun : Run S Calls Meets s t) (hi : s.procs[i]? = some p) (hp : wp S Legit Q p s.store)
    {o : Except ε α} (hdone : t.procs[i]? = some (Proc.ofExcept o)) : Q o t.store := by
  have hfollows : ∃ p', t.procs[i]? = some p' ∧ wp S Legit Q p' t.store := by
    clear hdone
    induction hrun with
    | refl => exact ⟨p, hi, hp⟩
    | @tail _ v a _ hstep hm ih =>
      obtain ⟨p', hi', hp'⟩ := ih
      refine hstep.follows hi' hp' fun j c ha => hlegit _ j c ?_
      rw [← ha]
      exact hm
  obtain ⟨p', hi', hp'⟩ := hfollows
  rw [hdone, Option.some.injEq] at hi'
  subst hi'
  cases o with
  | ok a => exact hp' t.store (Moves.refl _)
  | error e => exact hp' t.store (Moves.refl _)

end Outcome

/-! ## What programs may commit -/

section Commits

/-- Every transaction the program may still commit satisfies `P`. -/
def Proc.Commits (P : κ → Prop) : Proc σ κ ρ ε α → Prop
  | .ret _ => True
  | .raise _ => True
  | .read next => ∀ s, (next s).Commits P
  | .commit c next => P c ∧ ∀ r, (next r).Commits P

variable {P : κ → Prop}

theorem Proc.Commits.mono {P' : κ → Prop} (hP : ∀ c, P c → P' c) {p : Proc σ κ ρ ε α}
    (h : p.Commits P) : p.Commits P' := by
  induction p with
  | ret a => trivial
  | raise e => trivial
  | read next ih => exact fun s => ih s (h s)
  | commit c next ih => exact ⟨hP c h.1, fun r => ih r (h.2 r)⟩

/-- A program commits legitimate transactions only if all it may ever commit are. -/
theorem Proc.Commits.wp {S : Store σ κ ρ} {Legit : κ → σ → Prop} (hP : ∀ c s, P c → Legit c s)
    {p : Proc σ κ ρ ε α} (h : p.Commits P) (s : σ) : wp S Legit (fun _ _ => True) p s := by
  induction p generalizing s with
  | ret a => exact fun _ _ => trivial
  | raise e => exact fun _ _ => trivial
  | read next ih => exact fun t _ => ih t (h t) t
  | commit c next ih =>
    intro t _
    exact ⟨hP c t h.1, fun u r _ => ih r (h.2 r) u, ih _ (h.2 _) _⟩

theorem Proc.commits_pure (a : α) : (pure a : Proc σ κ ρ ε α).Commits P := trivial

theorem Proc.commits_throw (e : ε) : (throw e : Proc σ κ ρ ε α).Commits P := trivial

theorem Proc.commits_ofExcept (x : Except ε α) : (ofExcept x : Proc σ κ ρ ε α).Commits P := by
  cases x <;> trivial

theorem Proc.commits_query (f : σ → α) : (query f : Proc σ κ ρ ε α).Commits P := fun _ => trivial

theorem Proc.commits_txn {c : κ} (hc : P c) :
    (txn c : Proc σ κ (Except ε α) ε α).Commits P := ⟨hc, fun r => commits_ofExcept r⟩

theorem Proc.commits_bind {p : Proc σ κ ρ ε α} {f : α → Proc σ κ ρ ε β} (hp : p.Commits P)
    (hf : ∀ a, (f a).Commits P) : (p.bind f).Commits P := by
  induction p with
  | ret a => exact hf a
  | raise e => trivial
  | read next ih => exact fun s => ih s (hp s)
  | commit c next ih => exact ⟨hp.1, fun r => ih r (hp.2 r)⟩

/-- What a check lets through is all that the rest is asked about. -/
theorem Proc.commits_check {x : Except ε α} {f : α → Proc σ κ ρ ε β}
    (hf : ∀ a, x = .ok a → (f a).Commits P) : ((ofExcept x).bind f).Commits P := by
  cases x with
  | ok a => exact hf a rfl
  | error e => trivial

theorem Proc.commits_handle {p : Proc σ κ ρ ε α} {f : ε → Proc σ κ ρ ε α} (hp : p.Commits P)
    (hf : ∀ e, (f e).Commits P) : (p.handle f).Commits P := by
  induction p with
  | ret a => trivial
  | raise e => exact hf e
  | read next ih => exact fun s => ih s (hp s)
  | commit c next ih => exact ⟨hp.1, fun r => ih r (hp.2 r)⟩

variable {S : Store σ κ ρ} {Calls : Sys σ κ ρ ε α → Proc σ κ ρ ε α → Prop}
  {Meets : Sys σ κ ρ ε α → Action κ → Prop} {s t u : Sys σ κ ρ ε α} {a : Action κ}

/-- Every client of the system commits what satisfies `P` only. -/
def Sys.Commits (P : κ → Prop) (s : Sys σ κ ρ ε α) : Prop := ∀ p ∈ s.procs, p.Commits P

theorem Sys.Commits.step (hs : s.Commits P) (hcalls : ∀ s p, Calls s p → p.Commits P)
    (hstep : Step S Calls s a u) : u.Commits P := by
  have hset : ∀ {i : ℕ} {q : Proc σ κ ρ ε α}, q.Commits P → ∀ p ∈ s.procs.set i q, p.Commits P := by
    intro i q hq p hp
    rcases List.mem_or_eq_of_mem_set hp with hp | rfl
    · exact hs p hp
    · exact hq
  cases hstep with
  | call hcall =>
    intro p hp
    rcases List.mem_append.1 hp with hp | hp
    · exact hs p hp
    · rw [List.mem_singleton.1 hp]
      exact hcalls _ _ hcall
  | read hi => exact hset (hs _ (List.mem_of_getElem? hi) _)
  | commit hi _ => exact hset ((hs _ (List.mem_of_getElem? hi)).2 _)
  | abort hi => exact hset ((hs _ (List.mem_of_getElem? hi)).2 _)
  | tick _ => exact hs

/-- What a client of such a system commits satisfies `P`. -/
theorem Sys.Commits.of_commit (hs : s.Commits P) {i : ℕ} {c : κ}
    (hstep : Step S Calls s (.commit i c) u) : P c := by
  cases hstep with
  | commit hi _ => exact (hs _ (List.mem_of_getElem? hi)).1

theorem Run.commits (hcalls : ∀ s p, Calls s p → p.Commits P) (hrun : Run S Calls Meets s t)
    (hs : s.Commits P) : t.Commits P := by
  induction hrun with
  | refl => exact hs
  | tail _ hstep _ ih => exact ih.step hcalls hstep

/-- What every transaction that satisfies `P` and meets the condition keeps, a run keeps. -/
theorem Run.keeps_of_commits {I : σ → Prop} (hcalls : ∀ s p, Calls s p → p.Commits P)
    (hexec : ∀ s i c t r, P c → Meets s (.commit i c) → I s.store →
      S.exec c s.store = some (t, r) → I t)
    (habort : ∀ c s, I s → I (S.abort c s).1) (htick : ∀ s t, I s → S.tick s t → I t)
    (hrun : Run S Calls Meets s t) (hs : s.Commits P) (h₀ : I s.store) : I t.store := by
  induction hrun with
  | refl => exact h₀
  | tail hbefore hstep hm ih =>
    have hcommits := hbefore.commits hcalls hs
    cases hstep with
    | call _ => exact ih
    | read _ => exact ih
    | commit hi hc => exact hexec _ _ _ _ _ (hcommits _ (List.mem_of_getElem? hi)).1 hm ih hc
    | abort _ => exact habort _ _ ih
    | tick ht => exact htick _ _ ih ht

-- programs are taken apart by the lemmas above, never by running them
attribute [irreducible] Proc.Commits

end Commits

/-! ## What programs may come to -/

namespace Proc

/-- The program may end so, if it finds the store in any state whenever it turns to it. -/
inductive Yields (S : Store σ κ ρ) : Proc σ κ ρ ε α → Except ε α → Prop
  | ret (a : α) : Yields S (.ret a) (.ok a)
  | raise (e : ε) : Yields S (.raise e) (.error e)
  | read {next : σ → Proc σ κ ρ ε α} {o : Except ε α} (s : σ) : Yields S (next s) o →
      Yields S (.read next) o
  | commit {c : κ} {next : ρ → Proc σ κ ρ ε α} {o : Except ε α} {s t : σ} {r : ρ} :
      S.exec c s = some (t, r) → Yields S (next r) o → Yields S (.commit c next) o
  | abort {c : κ} {next : ρ → Proc σ κ ρ ε α} {o : Except ε α} (s : σ) :
      Yields S (next (S.abort c s).2) o → Yields S (.commit c next) o

variable {S : Store σ κ ρ}

theorem yields_ofExcept {x o : Except ε α} (h : (ofExcept x : Proc σ κ ρ ε α).Yields S o) : o = x := by
  cases x <;> cases h <;> rfl

/-- What a sequence comes to: its first part raises, or the second goes on. -/
theorem yields_bind {f : α → Proc σ κ ρ ε β} {p : Proc σ κ ρ ε α} {o : Except ε β}
    (h : (p.bind f).Yields S o) :
    (∃ a, p.Yields S (.ok a) ∧ (f a).Yields S o) ∨ ∃ e, p.Yields S (.error e) ∧ o = .error e := by
  induction p with
  | ret a => exact .inl ⟨a, .ret a, h⟩
  | raise e =>
    cases h
    exact .inr ⟨e, .raise e, rfl⟩
  | read next ih =>
    cases h with
    | read s h =>
      rcases ih s h with ⟨a, ha, hf⟩ | ⟨e, he, ho⟩
      · exact .inl ⟨a, .read s ha, hf⟩
      · exact .inr ⟨e, .read s he, ho⟩
  | commit c next ih =>
    cases h with
    | commit hexec h =>
      rcases ih _ h with ⟨a, ha, hf⟩ | ⟨e, he, ho⟩
      · exact .inl ⟨a, .commit hexec ha, hf⟩
      · exact .inr ⟨e, .commit hexec he, ho⟩
    | abort s h =>
      rcases ih _ h with ⟨a, ha, hf⟩ | ⟨e, he, ho⟩
      · exact .inl ⟨a, .abort s ha, hf⟩
      · exact .inr ⟨e, .abort s he, ho⟩

/-- What a transaction comes to: what the store answers, or what it says when it gives up. -/
theorem yields_txn {S : Store σ κ (Except ε α)} {c : κ} {o : Except ε α}
    (h : (txn c : Proc σ κ (Except ε α) ε α).Yields S o) :
    (∃ s t, S.exec c s = some (t, o)) ∨ ∃ s, o = (S.abort c s).2 := by
  cases h with
  | commit hexec h => exact .inl ⟨_, _, yields_ofExcept h ▸ hexec⟩
  | abort s h => exact .inr ⟨s, yields_ofExcept h⟩

end Proc

/-- **What a client comes to in a run its program may come to.** -/
theorem Run.yields {S : Store σ κ ρ} {Calls : Sys σ κ ρ ε α → Proc σ κ ρ ε α → Prop}
    {Meets : Sys σ κ ρ ε α → Action κ → Prop} {s t : Sys σ κ ρ ε α}
    (h : Run S Calls Meets s t) {i : ℕ} {p : Proc σ κ ρ ε α} (hi : s.procs[i]? = some p) :
    ∃ q, t.procs[i]? = some q ∧ ∀ o, q.Yields S o → p.Yields S o := by
  have hset : ∀ {l : List (Proc σ κ ρ ε α)} {j : ℕ} {q q' : Proc σ κ ρ ε α}, l[j]? = some q →
      (∀ o, q'.Yields S o → q.Yields S o) → (∃ q, l[i]? = some q ∧ ∀ o, q.Yields S o → p.Yields S o) →
      ∃ q, (l.set j q')[i]? = some q ∧ ∀ o, q.Yields S o → p.Yields S o := by
    rintro l j q q' hj hq ⟨q₀, hq₀, hp⟩
    by_cases hij : j = i
    · subst hij
      rw [hj, Option.some.injEq] at hq₀
      subst hq₀
      have hlt := (List.getElem?_eq_some_iff.1 hj).1
      exact ⟨q', List.getElem?_set_self hlt, fun o ho => hp o (hq o ho)⟩
    · exact ⟨q₀, (List.getElem?_set_ne hij).trans hq₀, hp⟩
  induction h with
  | refl => exact ⟨p, hi, fun _ ho => ho⟩
  | tail _ hstep _ ih =>
    cases hstep with
    | call _ =>
      obtain ⟨q, hq, hp⟩ := ih
      exact ⟨q, List.getElem?_append_left (List.getElem?_eq_some_iff.1 hq).1 ▸ hq, hp⟩
    | read hj => exact hset hj (fun o ho => .read _ ho) ih
    | commit hj hexec => exact hset hj (fun o ho => .commit hexec ho) ih
    | abort hj => exact hset hj (fun o ho => .abort _ ho) ih
    | tick _ => exact ih

/-! ## A client on its own -/

namespace Proc

variable {S : Store σ κ ρ}

/-- Run a program with nobody else about; `none` where it has to wait. -/
def alone (S : Store σ κ ρ) : Proc σ κ ρ ε α → σ → Option (σ × Except ε α)
  | ret a, s => some (s, .ok a)
  | raise e, s => some (s, .error e)
  | read next, s => (next s).alone S s
  | commit c next, s => (S.exec c s).bind fun result => (next result.2).alone S result.1

/-- The transactions it commits on the way. -/
def commitsAlone (S : Store σ κ ρ) : Proc σ κ ρ ε α → σ → List κ
  | ret _, _ | raise _, _ => []
  | read next, s => (next s).commitsAlone S s
  | commit c next, s => match S.exec c s with
    | some (t, r) => c :: (next r).commitsAlone S t
    | none => []

theorem alone_bind {f : α → Proc σ κ ρ ε β} (p : Proc σ κ ρ ε α) (s : σ) :
    (p.bind f).alone S s = (p.alone S s).bind fun result => match result.2 with
      | .ok a => (f a).alone S result.1
      | .error e => some (result.1, .error e) := by
  induction p generalizing s with
  | ret a => rfl
  | raise e => rfl
  | read next ih => exact ih s s
  | commit c next ih =>
    show (S.exec c s).bind (fun result => ((next result.2).bind f).alone S result.1) =
      ((S.exec c s).bind fun result => (next result.2).alone S result.1).bind _
    cases S.exec c s with
    | none => rfl
    | some result => exact ih result.2 result.1

theorem bind_ret (p : Proc σ κ ρ ε α) : p.bind ret = p := by
  induction p with
  | ret a => rfl
  | raise e => rfl
  | read next ih => exact congrArg read (funext ih)
  | commit c next ih => exact congrArg (commit c) (funext ih)

theorem bind_assoc {γ : Type} (p : Proc σ κ ρ ε α) (f : α → Proc σ κ ρ ε β)
    (g : β → Proc σ κ ρ ε γ) : (p.bind f).bind g = p.bind fun a => (f a).bind g := by
  induction p with
  | ret a => rfl
  | raise e => rfl
  | read next ih => exact congrArg read (funext ih)
  | commit c next ih => exact congrArg (commit c) (funext ih)

theorem mem_commitsAlone_bind {f : α → Proc σ κ ρ ε β} {c : κ} (p : Proc σ κ ρ ε α) {s : σ}
    (h : c ∈ p.commitsAlone S s) : c ∈ (p.bind f).commitsAlone S s := by
  induction p generalizing s with
  | ret a => cases h
  | raise e => cases h
  | read next ih => exact ih s h
  | commit c' next ih =>
    simp only [Proc.bind, commitsAlone] at h ⊢
    cases hexec : S.exec c' s with
    | none =>
      rw [hexec] at h
      cases h
    | some result =>
      rw [hexec] at h
      rcases List.mem_cons.1 h with rfl | h
      · exact List.mem_cons_self
      · exact List.mem_cons_of_mem _ (ih result.2 h)

/-- A program that follows the rule moves the store by legitimate moves, on its own too. -/
theorem alone_wp {Legit : κ → σ → Prop} {Q : Except ε α → σ → Prop} {p : Proc σ κ ρ ε α}
    {s t : σ} {x : Except ε α} (hp : wp S Legit Q p s) (h : p.alone S s = some (t, x)) :
    Moves S Legit s t := by
  induction p generalizing s with
  | ret a =>
    cases h
    exact Moves.refl _
  | raise e =>
    cases h
    exact Moves.refl _
  | read next ih => exact ih s (hp s (Moves.refl s)) h
  | commit c next ih =>
    rw [alone, Option.bind_eq_some_iff] at h
    obtain ⟨⟨u, r⟩, hexec, hrest⟩ := h
    obtain ⟨hlegit, hnext, -⟩ := hp s (Moves.refl s)
    have hfirst : Moves S Legit s u := (Moves.refl s).tail (Or.inl ⟨c, r, hlegit, hexec⟩)
    exact hfirst.trans (ih r (hnext u r hexec) hrest)

end Proc

/-! ## Schedules -/

/-- One decision of a scheduler: call a client, let a client take its next
step, or let the store move on its own. -/
inductive Choice (σ κ ρ ε α : Type) where
  | call (p : Proc σ κ ρ ε α)
  | go (i : ℕ)
  | tick (f : σ → σ)

/-- A decision the system allows in any state. -/
def Choice.Allowed (S : Store σ κ ρ) (Calls : Sys σ κ ρ ε α → Proc σ κ ρ ε α → Prop) :
    Choice σ κ ρ ε α → Prop
  | call p => ∀ s, Calls s p
  | go _ => True
  | tick f => ∀ s, S.tick s (f s)

namespace Sys

/-- Follow one decision, if the step passes the test and need not wait.  A client
that has finished stays as it is. -/
def advance (S : Store σ κ ρ) (test : Sys σ κ ρ ε α → Action κ → Bool) (s : Sys σ κ ρ ε α) :
    Choice σ κ ρ ε α → Option (Sys σ κ ρ ε α)
  | .call p => if test s .call then some ⟨s.store, s.procs ++ [p]⟩ else none
  | .go i =>
    match s.procs[i]? with
    | some (.read next) =>
      if test s (.read i) then some ⟨s.store, s.procs.set i (next s.store)⟩ else none
    | some (.commit c next) =>
      if test s (.commit i c) then
        (S.exec c s.store).map fun result => ⟨result.1, s.procs.set i (next result.2)⟩
      else none
    | _ => some s
  | .tick f => if test s .tick then some ⟨f s.store, s.procs⟩ else none

/-- Follow a schedule to its end. -/
def drive (S : Store σ κ ρ) (test : Sys σ κ ρ ε α → Action κ → Bool) :
    List (Choice σ κ ρ ε α) → Sys σ κ ρ ε α → Option (Sys σ κ ρ ε α)
  | [], s => some s
  | c :: rest, s => (s.advance S test c).bind (drive S test rest)

variable {S : Store σ κ ρ} {Calls : Sys σ κ ρ ε α → Proc σ κ ρ ε α → Prop}
  {Meets : Sys σ κ ρ ε α → Action κ → Prop} {test : Sys σ κ ρ ε α → Action κ → Bool}

theorem advance_run {s u : Sys σ κ ρ ε α} {c : Choice σ κ ρ ε α} (h : s.advance S test c = some u)
    (hc : c.Allowed S Calls) (htest : ∀ s a, test s a = true → Meets s a) :
    Run S Calls Meets s u := by
  cases c with
  | call p =>
    simp only [advance, Option.ite_none_right_eq_some, Option.some.injEq] at h
    obtain ⟨ht, rfl⟩ := h
    exact (Run.refl s).tail (.call (hc s)) (htest _ _ ht)
  | go i =>
    simp only [advance] at h
    split at h
    · rename_i next hi
      simp only [Option.ite_none_right_eq_some, Option.some.injEq] at h
      obtain ⟨ht, rfl⟩ := h
      exact (Run.refl s).tail (.read hi) (htest _ _ ht)
    · rename_i c next hi
      simp only [Option.ite_none_right_eq_some, Option.map_eq_some_iff] at h
      obtain ⟨ht, ⟨t, r⟩, hexec, rfl⟩ := h
      exact (Run.refl s).tail (.commit hi hexec) (htest _ _ ht)
    · cases h
      exact Run.refl _
  | tick f =>
    simp only [advance, Option.ite_none_right_eq_some, Option.some.injEq] at h
    obtain ⟨ht, rfl⟩ := h
    exact (Run.refl s).tail (.tick (hc _)) (htest _ _ ht)

/-- A schedule that can be followed is a run. -/
theorem drive_run {cs : List (Choice σ κ ρ ε α)} {s u : Sys σ κ ρ ε α}
    (h : drive S test cs s = some u) (hcs : ∀ c ∈ cs, c.Allowed S Calls)
    (htest : ∀ s a, test s a = true → Meets s a) : Run S Calls Meets s u := by
  induction cs generalizing s with
  | nil =>
    cases h
    exact Run.refl _
  | cons c rest ih =>
    rw [drive, Option.bind_eq_some_iff] at h
    obtain ⟨t, hfirst, hrest⟩ := h
    have hrun := advance_run hfirst (hcs c (List.mem_cons_self ..)) htest
    exact hrun.trans (ih hrest fun c' hc' => hcs c' (List.mem_cons_of_mem _ hc'))

/-- What a schedule leads to is what some run leads to. -/
theorem exists_run {cs : List (Choice σ κ ρ ε α)} {s : Sys σ κ ρ ε α} {p : Sys σ κ ρ ε α → Bool}
    (h : (drive S test cs s).any p = true) (hcs : ∀ c ∈ cs, c.Allowed S Calls)
    (htest : ∀ s a, test s a = true → Meets s a) : ∃ u, Run S Calls Meets s u ∧ p u = true := by
  obtain ⟨u, hu, hp⟩ := (Option.any_eq_true _ _).1 h
  exact ⟨u, drive_run hu hcs htest, hp⟩

/-- Is the next step of a client a transaction that can commit, and as the test says? -/
def committing (S : Store σ κ ρ) (i : ℕ) (test : κ → σ → Bool) (s : Sys σ κ ρ ε α) : Bool :=
  match s.procs[i]? with
  | some (.commit c _) => (S.exec c s.store).any fun result => test c result.1
  | _ => false

theorem exists_commit {s : Sys σ κ ρ ε α} {i : ℕ} {test : κ → σ → Bool}
    (h : s.committing S i test = true) :
    ∃ c u, Step S Calls s (.commit i c) u ∧ test c u.store = true := by
  unfold committing at h
  split at h
  · rename_i c next hi
    obtain ⟨⟨t, r⟩, hexec, htest⟩ := (Option.any_eq_true _ _).1 h
    exact ⟨c, _, .commit hi hexec, htest⟩
  · cases h

/-- The transaction a client commits next, and the system after it. -/
def commitOf (S : Store σ κ ρ) (i : ℕ) (s : Sys σ κ ρ ε α) : Option (κ × Sys σ κ ρ ε α) :=
  match s.procs[i]? with
  | some (.commit c next) =>
    (S.exec c s.store).map fun result => (c, ⟨result.1, s.procs.set i (next result.2)⟩)
  | _ => none

theorem step_of_commitOf {s u : Sys σ κ ρ ε α} {i : ℕ} {c : κ}
    (h : s.commitOf S i = some (c, u)) : Step S Calls s (.commit i c) u := by
  unfold commitOf at h
  split at h
  · rename_i c next hi
    obtain ⟨⟨t, r⟩, hexec, heq⟩ := Option.map_eq_some_iff.1 h
    cases heq
    exact .commit hi hexec
  · cases h

end Sys

end Interleave
