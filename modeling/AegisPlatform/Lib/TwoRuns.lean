import AegisPlatform.Lib.Effects

/-!
# Two runs of a program

What a program does depends on what it is answered.  Two environments may differ in ways that it
takes no notice of: `R` says which answers it may get in one run and in the other.

* `Alike` — two programs that make the same calls as long as the answers are related, and whose
  results are related.
* `Alike.bind`, `Alike.handle` — the rules, which follow how a program is put together.
* `Related`, `Alike.run` — two environments that give related answers see the same calls.
-/

namespace Effects

variable {κ : Type} {ρ : κ → Type} {ε α β : Type}

namespace Prog

/-- The programs make the same calls, and end alike. -/
inductive Alike (R : (c : κ) → Except ε (ρ c) → Except ε (ρ c) → Prop) (S : α → α → Prop) :
    Prog κ ρ ε α → Prog κ ρ ε α → Prop
  | ret {a a' : α} : S a a' → Alike R S (ret a) (ret a')
  | raise (e : ε) : Alike R S (raise e) (raise e)
  | call (c : κ) {next next' : Except ε (ρ c) → Prog κ ρ ε α} :
      (∀ r r', R c r r' → Alike R S (next r) (next' r')) → Alike R S (call c next) (call c next')

variable {R : (c : κ) → Except ε (ρ c) → Except ε (ρ c) → Prop} {S : α → α → Prop}
  {S' : β → β → Prop} {p p' : Prog κ ρ ε α}

theorem Alike.pure {a a' : α} (h : S a a') : Alike R S (Pure.pure a) (Pure.pure a') := .ret h

theorem Alike.throw (e : ε) : Alike R S (MonadExcept.throw e) (MonadExcept.throw e) := .raise e

/-- Sequencing: the rest starts from related results. -/
theorem Alike.bind {f f' : α → Prog κ ρ ε β} (h : Alike R S p p')
    (hf : ∀ a a', S a a' → Alike R S' (f a) (f' a')) : Alike R S' (p >>= f) (p' >>= f') := by
  induction h with
  | ret ha => exact hf _ _ ha
  | raise e => exact .raise e
  | call c _ ih => exact .call c fun r r' hr => ih r r' hr

/-- Handling. -/
theorem Alike.handle {f f' : ε → Prog κ ρ ε α} (h : Alike R S p p')
    (hf : ∀ e, Alike R S (f e) (f' e)) : Alike R S (tryCatch p f) (tryCatch p' f') := by
  induction h with
  | ret ha => exact .ret ha
  | raise e => exact hf e
  | call c _ ih => exact .call c fun r r' hr => ih r r' hr

/-- Two answers of one kind: the same exception, or related values. -/
inductive Answer {α : Type} (S : α → α → Prop) : Except ε α → Except ε α → Prop
  | ok {a a' : α} : S a a' → Answer S (.ok a) (.ok a')
  | error (e : ε) : Answer S (.error e) (.error e)

theorem Answer.refl {S : α → α → Prop} (hS : ∀ a, S a a) (r : Except ε α) : Answer S r r := by
  cases r with
  | ok a => exact .ok (hS a)
  | error e => exact .error e

theorem Answer.eq {r r' : Except ε α} (h : Answer Eq r r') : r = r' := by
  cases h with
  | ok h => rw [h]
  | error e => rfl

/-- A call whose answers are of one kind. -/
theorem Alike.ask {c : κ} {S : ρ c → ρ c → Prop} (h : ∀ r r', R c r r' → Answer S r r') :
    Alike R S (Prog.ask c) (Prog.ask c) := by
  refine .call c fun r r' hr => ?_
  cases h r r' hr with
  | ok ha => exact .ret ha
  | error e => exact .raise e

/-- A program whose calls all get one answer does one thing. -/
theorem Alike.refl {P : κ → Prop} (hP : ∀ c r r', P c → R c r r' → r = r') (hp : p.Asks P) :
    Alike R Eq p p := by
  induction p with
  | ret a => exact .ret rfl
  | raise e => exact .raise e
  | call c next ih =>
    refine .call c fun r r' hr => ?_
    rw [← hP c r r' hp.1 hr]
    exact ih r (hp.2 r)

/-! ## Runs -/

/-- Two histories of the same calls, with related answers. -/
inductive Related (R : (c : κ) → Except ε (ρ c) → Except ε (ρ c) → Prop) :
    History κ ρ ε → History κ ρ ε → Prop
  | nil : Related R [] []
  | concat {h h' : History κ ρ ε} (c : κ) {r r' : Except ε (ρ c)} : Related R h h' → R c r r' →
      Related R (h ++ [⟨c, r⟩]) (h' ++ [⟨c, r'⟩])

/-- The calls are the same. -/
theorem Related.calls {h h' : History κ ρ ε} (hrel : Related R h h') :
    h.map Sigma.fst = h'.map Sigma.fst := by
  induction hrel with
  | nil => rfl
  | concat c _ _ ih => rw [List.map_append, List.map_append, ih]; rfl

/-- **Environments that give related answers see the same calls**, and the outcomes are
related. -/
theorem Alike.run {env env' : Env κ ρ ε}
    (henv : ∀ h h' c, Related R h h' → R c (env h c) (env' h' c)) (hp : Alike R S p p')
    {h h' : History κ ρ ε} (hrel : Related R h h') :
    Related R (p.run env h).1 (p'.run env' h').1 ∧
      Answer S (p.run env h).2 (p'.run env' h').2 := by
  induction hp generalizing h h' with
  | ret ha => exact ⟨hrel, .ok ha⟩
  | raise e => exact ⟨hrel, .error e⟩
  | call c _ ih =>
    have hr := henv h h' c hrel
    exact ih _ _ hr (hrel.concat c hr)

end Prog

end Effects
