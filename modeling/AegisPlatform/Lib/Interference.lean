import AegisPlatform.Lib.Clients

/-!
# Programs among others

One program over a store that others move as well, before each of its calls.

* `RunsAmong` — the program runs to its end.
* `RunsAmong.bind_ok`, `RunsAmong.handle_ok`, `RunsAmong.ask` — such a run, taken apart.
* `RunsAmong.wp` — what the rule of a program says of its outcome.
* `runsAmong_runClient` — a client that is served alone runs so.
-/

namespace Effects

section

variable {σ κ : Type} {ρ : κ → Type} {ε α β : Type}
  (Serves : (c : κ) → σ → Except ε (ρ c) → σ → Prop) (Others : σ → σ → Prop)

/-- A program runs to its end; before each of its calls others may have moved the store. -/
inductive RunsAmong : Prog κ ρ ε α → σ → Except ε α → σ → Prop
  | ret (a : α) (s : σ) : RunsAmong (.ret a) s (.ok a) s
  | raise (e : ε) (s : σ) : RunsAmong (.raise e) s (.error e) s
  | call {c : κ} {next : Except ε (ρ c) → Prog κ ρ ε α} {s t u v : σ} {r : Except ε (ρ c)}
      {o : Except ε α} : Others s t → Serves c t r u → RunsAmong (next r) u o v →
      RunsAmong (.call c next) s o v

variable {Serves Others} {p : Prog κ ρ ε α} {s v : σ}

/-- What the rule of a program says of its outcome is said of such a run. -/
theorem RunsAmong.wp {o : Except ε α} (h : RunsAmong Serves Others p s o v)
    {Allowed : History κ ρ ε → κ → Prop} {Q : Except ε α → History κ ρ ε → Prop}
    {before : History κ ρ ε} (hp : p.wp (fun _ _ => True) Allowed Q before) : ∃ h', Q o h' := by
  induction h generalizing before with
  | ret a s => exact ⟨before, hp⟩
  | raise e s => exact ⟨before, hp⟩
  | call _ _ _ ih => exact ih (hp.2 _ trivial)

theorem RunsAmong.pure_ok {a b : α} (h : RunsAmong Serves Others (pure a) s (.ok b) v) :
    b = a ∧ v = s := by
  cases h
  exact ⟨rfl, rfl⟩

theorem RunsAmong.ofExcept_ok {x : Except ε α} {a : α}
    (h : RunsAmong Serves Others (Prog.ofExcept x) s (.ok a) v) : x = .ok a ∧ v = s := by
  cases x with
  | ok b =>
    cases h
    exact ⟨rfl, rfl⟩
  | error e => cases h

/-- A sequence returns if both parts do. -/
theorem RunsAmong.bind_ok {f : α → Prog κ ρ ε β} {b : β}
    (h : RunsAmong Serves Others (p >>= f) s (.ok b) v) :
    ∃ a t, RunsAmong Serves Others p s (.ok a) t ∧ RunsAmong Serves Others (f a) t (.ok b) v := by
  induction p generalizing s with
  | ret a => exact ⟨a, s, .ret a s, h⟩
  | raise e => cases h
  | call c next ih =>
    cases h with
    | call hothers hserves hrest =>
      obtain ⟨a, t, hfirst, hlast⟩ := ih _ hrest
      exact ⟨a, t, .call hothers hserves hfirst, hlast⟩

theorem RunsAmong.handle_ok {f : ε → Prog κ ρ ε α} {a : α}
    (h : RunsAmong Serves Others (tryCatch p f) s (.ok a) v) :
    RunsAmong Serves Others p s (.ok a) v ∨
      ∃ e t, RunsAmong Serves Others p s (.error e) t ∧
        RunsAmong Serves Others (f e) t (.ok a) v := by
  induction p generalizing s with
  | ret b => exact .inl h
  | raise e => exact .inr ⟨e, s, .raise e s, h⟩
  | call c next ih =>
    cases h with
    | call hothers hserves hrest =>
      rcases ih _ hrest with hok | ⟨e, t, herror, hlast⟩
      · exact .inl (.call hothers hserves hok)
      · exact .inr ⟨e, t, .call hothers hserves herror, hlast⟩

theorem RunsAmong.ask {c : κ} {o : Except ε (ρ c)}
    (h : RunsAmong Serves Others (Prog.ask c) s o v) :
    ∃ t, Others s t ∧ Serves c t o v := by
  cases h with
  | @call _ _ _ t u _ r _ hothers hserves hrest =>
    cases r with
    | ok a =>
      cases hrest
      exact ⟨t, hothers, hserves⟩
    | error e =>
      cases hrest
      exact ⟨t, hothers, hserves⟩

/-- A client that is served alone. -/
theorem runsAmong_runClient {ι : Type} {Serves : ι → (c : κ) → σ → Except ε (ρ c) → σ → Prop}
    {answer : ι → (c : κ) → σ → Option (Except ε (ρ c) × σ)} (hothers : ∀ s, Others s s)
    (hanswer : ∀ args c s r s', answer args c s = some (r, s') → Serves args c s r s') {a : α}
    (n : ℕ) {client : Client ι κ ρ ε α}
    (h : Service.returned? (Service.runClient answer n s client).2.rest = some a) :
    RunsAmong (Serves client.args) Others client.rest s (.ok a)
      (Service.runClient answer n s client).1 := by
  induction n generalizing s client with
  | zero =>
    have hret : client.rest = .ret a := Service.eq_ret_of_returned? h
    rw [hret]
    exact .ret a s
  | succ n ih =>
    obtain ⟨args, history, rest⟩ := client
    cases rest with
    | ret b =>
      have hret : (Prog.ret b : Prog κ ρ ε α) = .ret a := Service.eq_ret_of_returned? h
      cases hret
      exact .ret a s
    | raise e => cases h
    | call c next =>
      rw [Service.runClient] at h ⊢
      cases hr : answer args c s with
      | none =>
        rw [hr] at h
        cases h
      | some x =>
        obtain ⟨r, s'⟩ := x
        rw [hr] at h
        exact .call (hothers s) (hanswer _ _ _ _ _ hr) (ih h)

end

end Effects
