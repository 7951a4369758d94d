import Mathlib.Tactic.Basic

/-!
# Fallible computations

Programs that check and raise are written in `Except`.  To read such a program
backwards from a result, `bind_eq_ok`, `pure_eq_ok` and `raiseIf_eq_ok` peel one
statement off at a time.  `RaisesOnly` is about the other outcome: what a program
may raise, again one statement at a time.
-/

namespace Fallible

variable {ε α β : Type}

/-- `if c: raise e`. -/
def raiseIf (c : Prop) [Decidable c] (e : ε) : Except ε Unit := if c then .error e else .ok ()

/-- `x` or, where there is none, an exception. -/
def orRaise (e : ε) : Option α → Except ε α
  | some a => .ok a
  | none => .error e

theorem bind_eq_ok {x : Except ε α} {f : α → Except ε β} {b : β} :
    (x >>= f) = .ok b ↔ ∃ a, x = .ok a ∧ f a = .ok b := by
  cases x with
  | ok a => exact ⟨fun h => ⟨a, rfl, h⟩, fun ⟨_, ha, h⟩ => by cases ha; exact h⟩
  | error e => exact ⟨fun h => (by cases h), fun ⟨_, ha, _⟩ => (by cases ha)⟩

theorem ok_bind (a : α) (f : α → Except ε β) : (Except.ok a >>= f) = f a := rfl

theorem pure_eq_ok {a b : α} : (pure a : Except ε α) = .ok b ↔ a = b :=
  ⟨fun h => by cases h; rfl, fun h => by rw [h]; rfl⟩

theorem raiseIf_eq_ok {c : Prop} [Decidable c] {e : ε} {u : Unit} :
    raiseIf c e = .ok u ↔ ¬ c := by
  by_cases hc : c
  · simp [raiseIf, hc]
  · simp [raiseIf, hc]

theorem raiseIf_bind {c : Prop} [Decidable c] {e : ε} {f : Unit → Except ε β} :
    (raiseIf c e >>= f) = if c then .error e else f () := by
  by_cases hc : c
  · rw [raiseIf, if_pos hc, if_pos hc]
    rfl
  · rw [raiseIf, if_neg hc, if_neg hc]
    rfl

theorem orRaise_eq_ok {e : ε} {x : Option α} {a : α} : orRaise e x = .ok a ↔ x = some a := by
  cases x with
  | none => simp [orRaise]
  | some b => simp [orRaise]

theorem map_eq_ok {x : Except ε α} {f : α → β} {b : β} :
    x.map f = .ok b ↔ ∃ a, x = .ok a ∧ f a = b := by
  cases x with
  | ok a => simp [Except.map]
  | error e => simp [Except.map]

theorem mapError_eq_ok {δ : Type} {x : Except ε α} {f : ε → δ} {a : α} :
    x.mapError f = .ok a ↔ x = .ok a := by
  cases x with
  | ok b =>
    show Except.ok b = Except.ok a ↔ Except.ok b = Except.ok a
    rw [Except.ok.injEq, Except.ok.injEq]
  | error e => exact ⟨fun h => (by cases h), fun h => by cases h⟩

theorem mapError_eq_error {δ : Type} {x : Except ε α} {f : ε → δ} {d : δ} :
    x.mapError f = .error d ↔ ∃ e, x = .error e ∧ f e = d := by
  constructor
  · intro h
    cases x with
    | ok a => cases h
    | error e => exact ⟨e, rfl, Except.error.inj h⟩
  · rintro ⟨e, rfl, rfl⟩
    rfl

theorem map_bind {γ : Type} (x : Except ε α) (f : α → Except ε β) (g : β → γ) :
    (x >>= f).map g = x >>= fun a => (f a).map g := by
  cases x <;> rfl

/-- A loop of checks passes if each of them does. -/
theorem forM_eq_ok {l : List α} {f : α → Except ε Unit} {u : Unit} :
    l.forM f = .ok u ↔ ∀ a ∈ l, f a = .ok () := by
  induction l with
  | nil => exact iff_of_true rfl (fun _ h => absurd h List.not_mem_nil)
  | cons a l ih =>
    rw [List.forall_mem_cons]
    refine bind_eq_ok.trans ?_
    exact ⟨fun ⟨_, ha, hl⟩ => ⟨ha, ih.1 hl⟩, fun ⟨ha, hl⟩ => ⟨(), ha, ih.2 hl⟩⟩

/-- A loop that keeps an invariant, and can go on wherever it holds, comes to its end. -/
theorem foldlM_ok {f : β → α → Except ε β} {I : β → Prop} {l : List α} {b : β} (hb : I b)
    (hstep : ∀ a ∈ l, ∀ b, I b → ∃ b', f b a = .ok b' ∧ I b') :
    ∃ b', l.foldlM f b = .ok b' ∧ I b' := by
  induction l generalizing b with
  | nil => exact ⟨b, rfl, hb⟩
  | cons a l ih =>
    obtain ⟨b', hf, hb'⟩ := hstep a List.mem_cons_self b hb
    obtain ⟨b'', hrest, hb''⟩ := ih hb' fun a ha => hstep a (List.mem_cons_of_mem _ ha)
    refine ⟨b'', ?_, hb''⟩
    rw [List.foldlM_cons, hf]
    exact hrest

/-! ## What a computation may raise -/

/-- Every exception the computation raises satisfies `P`. -/
def RaisesOnly (P : ε → Prop) (x : Except ε α) : Prop := ∀ e, x = .error e → P e

variable {P : ε → Prop}

theorem raisesOnly_ok (a : α) : RaisesOnly P (.ok a : Except ε α) := fun _ h => (by cases h)

theorem raisesOnly_error {e : ε} (h : P e) : RaisesOnly P (.error e : Except ε α) := by
  intro e' he
  cases he
  exact h

theorem raisesOnly_bind {x : Except ε α} {f : α → Except ε β} (hx : RaisesOnly P x)
    (hf : ∀ a, x = .ok a → RaisesOnly P (f a)) : RaisesOnly P (x >>= f) := by
  cases x with
  | ok a => exact hf a rfl
  | error e => exact raisesOnly_error (hx e rfl)

theorem raisesOnly_raiseIf {c : Prop} [Decidable c] {e : ε} (h : c → P e) :
    RaisesOnly P (raiseIf c e) := by
  unfold raiseIf
  split
  · exact raisesOnly_error (h (by assumption))
  · exact raisesOnly_ok ()

theorem raisesOnly_orRaise {e : ε} {x : Option α} (h : x = none → P e) :
    RaisesOnly P (orRaise e x) := by
  cases x with
  | none => exact raisesOnly_error (h rfl)
  | some a => exact raisesOnly_ok a

end Fallible
