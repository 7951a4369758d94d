import AegisPlatform.Lib.Effects

/-!
# Clients of a store

Any number of programs over one store.  Each call is served on its own, and calls of different
programs come in any order; a program may be started at any time, and the store may also move by
itself.

* `Prog.Follows` — the rule for a program, where what it raises does not matter.
* `Client`, `Service`, `Step`, `Reaches` — the programs with their histories, and the store.
* `Sound` — every client follows its rule from where it stands; `Sound.ended` is what it says in the
  end.
* `Reaches.keeps` — an invariant that makes the answers lawful is kept, and so is soundness.
* `Grows` — clients are never lost, nor is anything they have seen.
* `serve` — one program alone, run by a function that answers its calls.
-/

namespace Effects

variable {σ ι κ : Type} {ρ : κ → Type} {ε α β : Type}

/-! ## Programs under a rule -/

namespace Prog

section

variable (Allowed : History κ ρ ε → κ → Prop)

/-- The program makes allowed calls only, and if it raises nothing, what it returns and the history
it ends with satisfy `R`. -/
def Follows (p : Prog κ ρ ε α) (h : History κ ρ ε) (R : α → History κ ρ ε → Prop) : Prop :=
  p.wp (fun _ _ => True) Allowed (fun o h' => ∀ a, o = .ok a → R a h') h

variable {Allowed} {p : Prog κ ρ ε α} {h : History κ ρ ε} {R R' : α → History κ ρ ε → Prop}
  {S : β → History κ ρ ε → Prop}

theorem Follows.mono (hp : p.Follows Allowed h R) (hR : ∀ a h', R a h' → R' a h') :
    p.Follows Allowed h R' :=
  wp_mono (fun _ _ ho a ha => hR a _ (ho a ha)) p hp

theorem follows_pure {a : α} (ha : R a h) : (pure a : Prog κ ρ ε α).Follows Allowed h R := by
  rintro _ heq
  cases heq
  exact ha

theorem follows_throw {e : ε} : (throw e : Prog κ ρ ε α).Follows Allowed h R := fun _ heq => by
  cases heq

theorem follows_ofExcept {x : Except ε α} (hx : ∀ a, x = .ok a → R a h) :
    (ofExcept x).Follows Allowed h R := by
  cases x with
  | ok a => exact follows_pure (hx a rfl)
  | error e => exact follows_throw

theorem follows_bind {f : α → Prog κ ρ ε β} (hp : p.Follows Allowed h fun a h' =>
    (f a).Follows Allowed h' S) : (p >>= f).Follows Allowed h S := by
  refine wp_bind _ (wp_mono (fun o h' ho => ?_) _ hp)
  cases o with
  | ok a => exact ho a rfl
  | error e => exact fun _ heq => by cases heq

theorem follows_ask {c : κ} {R : ρ c → History κ ρ ε → Prop} (hc : Allowed h c)
    (hR : ∀ a, R a (h ++ [⟨c, .ok a⟩])) : (ask c).Follows Allowed h R := by
  refine wp_ask hc fun r _ a ha => ?_
  rw [ha]
  exact hR a

/-- What has happened is not forgotten. -/
theorem Follows.grows (hp : p.Follows Allowed h R) :
    p.Follows Allowed h fun a h' => h ⊆ h' ∧ R a h' := by
  unfold Follows at hp ⊢
  induction p generalizing h with
  | ret a => exact fun a ha => ⟨List.Subset.refl _, hp a ha⟩
  | raise e => exact fun a ha => by cases ha
  | call c next ih =>
    refine ⟨hp.1, fun r hr => wp_mono (fun o h' ho a ha => ?_) _ (ih r (hp.2 r hr))⟩
    obtain ⟨hsub, hR⟩ := ho a ha
    exact ⟨fun x hx => hsub (List.mem_append_left _ hx), hR⟩

end

end Prog

/-- A program under way: what it was started with, its calls so far, and what is left of it. -/
structure Client (ι κ : Type) (ρ : κ → Type) (ε α : Type) where
  args : ι
  history : History κ ρ ε
  rest : Prog κ ρ ε α

/-- A store with its clients. -/
structure Service (σ ι κ : Type) (ρ : κ → Type) (ε α : Type) where
  store : σ
  clients : List (Client ι κ ρ ε α)

namespace Service

section

variable (prog : ι → Prog κ ρ ε α) (Serves : ι → (c : κ) → σ → Except ε (ρ c) → σ → Prop)
  (Moves : σ → σ → Prop)

/-- A client that has been answered. -/
def answered (s : Service σ ι κ ρ ε α) (k : ℕ) (client : Client ι κ ρ ε α) (c : κ)
    (next : Except ε (ρ c) → Prog κ ρ ε α) (r : Except ε (ρ c)) (store : σ) :
    Service σ ι κ ρ ε α :=
  ⟨store, s.clients.set k ⟨client.args, client.history ++ [⟨c, r⟩], next r⟩⟩

inductive Step : Service σ ι κ ρ ε α → Service σ ι κ ρ ε α → Prop
  | start {s : Service σ ι κ ρ ε α} (args : ι) :
      Step s ⟨s.store, s.clients ++ [⟨args, [], prog args⟩]⟩
  | call {s : Service σ ι κ ρ ε α} {k : ℕ} {client : Client ι κ ρ ε α} {c : κ}
      {next : Except ε (ρ c) → Prog κ ρ ε α} {r : Except ε (ρ c)} {store : σ} :
      s.clients[k]? = some client → client.rest = .call c next →
      Serves client.args c s.store r store → Step s (s.answered k client c next r store)
  | move {s : Service σ ι κ ρ ε α} {store : σ} : Moves s.store store → Step s ⟨store, s.clients⟩

inductive Reaches : Service σ ι κ ρ ε α → Service σ ι κ ρ ε α → Prop
  | refl (s : Service σ ι κ ρ ε α) : Reaches s s
  | tail {s t u : Service σ ι κ ρ ε α} :
      Reaches s t → Step prog Serves Moves t u → Reaches s u

end

variable {prog : ι → Prog κ ρ ε α} {Serves : ι → (c : κ) → σ → Except ε (ρ c) → σ → Prop}
  {Moves : σ → σ → Prop} {s t : Service σ ι κ ρ ε α}

/-- More may be answered. -/
theorem Reaches.mono {Serves' : ι → (c : κ) → σ → Except ε (ρ c) → σ → Prop}
    (hserves : ∀ args c store r store', Serves args c store r store' →
      Serves' args c store r store') (h : Reaches prog Serves Moves s t) :
    Reaches prog Serves' Moves s t := by
  induction h with
  | refl => exact .refl _
  | tail _ hstep ih =>
    cases hstep with
    | start args => exact ih.tail (.start args)
    | call hk hrest hcall => exact ih.tail (.call hk hrest (hserves _ _ _ _ _ hcall))
    | move hmoves => exact ih.tail (.move hmoves)

/-! ## The clients after a step -/

theorem getElem?_start {clients : List (Client ι κ ρ ε α)} {new other : Client ι κ ρ ε α} {j : ℕ}
    (h : (clients ++ [new])[j]? = some other) :
    clients[j]? = some other ∨ j = clients.length ∧ other = new := by
  rcases Nat.lt_trichotomy j clients.length with hlt | rfl | hlt
  · rw [List.getElem?_append_left hlt] at h
    exact .inl h
  · rw [List.getElem?_concat_length] at h
    cases h
    exact .inr ⟨rfl, rfl⟩
  · rw [List.getElem?_eq_none (by rw [List.length_append, List.length_singleton]; exact hlt)] at h
    cases h

/-- The history of another client, or of the one that was answered. -/
theorem getElem?_answered {k j : ℕ} {client other : Client ι κ ρ ε α} {c : κ}
    {next : Except ε (ρ c) → Prog κ ρ ε α} {r : Except ε (ρ c)} {store : σ}
    (hk : s.clients[k]? = some client)
    (h : (s.answered k client c next r store).clients[j]? = some other) :
    ∃ old, s.clients[j]? = some old ∧ other.args = old.args ∧
      (j = k ∧ old = client ∧ other.history = old.history ++ [⟨c, r⟩] ∨
        j ≠ k ∧ other.history = old.history) := by
  rw [answered, List.getElem?_set] at h
  split at h
  · rename_i hkj
    subst hkj
    split at h
    · cases h
      exact ⟨client, hk, rfl, .inl ⟨rfl, rfl, rfl⟩⟩
    · cases h
  · rename_i hkj
    exact ⟨other, h, rfl, .inr ⟨Ne.symm hkj, rfl⟩⟩

/-! ## The rule -/

section

variable (Lawful : ι → (c : κ) → Except ε (ρ c) → Prop) (Allowed : ι → History κ ρ ε → κ → Prop)
  (Q : ι → Except ε α → History κ ρ ε → Prop)

/-- Every client follows the rule of its program. -/
def Sound (s : Service σ ι κ ρ ε α) : Prop :=
  ∀ client ∈ s.clients,
    client.rest.wp (Lawful client.args) (Allowed client.args) (Q client.args) client.history

variable {Lawful Allowed Q}

/-- **Clients that follow their rules keep what their calls keep**: whatever is allowed is
answered lawfully. -/
theorem Reaches.keeps {I : Service σ ι κ ρ ε α → Prop}
    (hprog : ∀ args, (prog args).wp (Lawful args) (Allowed args) (Q args) [])
    (hstart : ∀ (s : Service σ ι κ ρ ε α) (args : ι), I s →
      I ⟨s.store, s.clients ++ [⟨args, [], prog args⟩]⟩)
    (hcall : ∀ (s : Service σ ι κ ρ ε α) (k : ℕ) (client : Client ι κ ρ ε α) (c : κ)
      (next : Except ε (ρ c) → Prog κ ρ ε α) (r : Except ε (ρ c)) (store : σ),
      I s → s.clients[k]? = some client → Allowed client.args client.history c →
      Serves client.args c s.store r store →
      Lawful client.args c r ∧ I (s.answered k client c next r store))
    (hmove : ∀ (s : Service σ ι κ ρ ε α) (store : σ), I s → Moves s.store store →
      I ⟨store, s.clients⟩)
    (h : Reaches prog Serves Moves s t) (hI : I s) (hsound : Sound Lawful Allowed Q s) :
    I t ∧ Sound Lawful Allowed Q t := by
  induction h with
  | refl => exact ⟨hI, hsound⟩
  | tail _ hstep ih =>
    obtain ⟨hI, hsound⟩ := ih
    cases hstep with
    | start args =>
      refine ⟨hstart _ args hI, fun client hclient => ?_⟩
      rcases List.mem_append.1 hclient with hclient | hclient
      · exact hsound client hclient
      · rw [List.mem_singleton.1 hclient]
        exact hprog args
    | @call k client c next r store hk hrest hserves =>
      have hwp := hsound client (List.mem_of_getElem? hk)
      rw [hrest] at hwp
      obtain ⟨hlawful, hI'⟩ := hcall _ k client c next r store hI hk hwp.1 hserves
      refine ⟨hI', fun client' hclient' => ?_⟩
      rcases List.mem_or_eq_of_mem_set hclient' with hclient' | rfl
      · exact hsound client' hclient'
      · exact hwp.2 r hlawful
    | move hmoves => exact ⟨hmove _ _ hI hmoves, hsound⟩

/-- What the rule says of a client that has ended. -/
theorem Sound.ended (hsound : Sound Lawful Allowed Q s) {client : Client ι κ ρ ε α}
    (hclient : client ∈ s.clients) {o : Except ε α} (hrest : client.rest = .ofExcept o) :
    Q client.args o client.history := by
  have hwp := hsound client hclient
  rw [hrest] at hwp
  cases o with
  | ok a => exact hwp
  | error e => exact hwp

end

/-! ## What only grows -/

/-- Every client is still there, and remembers what it has seen. -/
def Grows (s t : Service σ ι κ ρ ε α) : Prop :=
  ∀ client ∈ s.clients, ∃ client' ∈ t.clients,
    client'.args = client.args ∧ client.history ⊆ client'.history

theorem Grows.start (s : Service σ ι κ ρ ε α) (client : Client ι κ ρ ε α) :
    Grows s ⟨s.store, s.clients ++ [client]⟩ :=
  fun client' hclient => ⟨client', List.mem_append_left _ hclient, rfl, List.Subset.refl _⟩

theorem Grows.move (s : Service σ ι κ ρ ε α) (store : σ) : Grows s ⟨store, s.clients⟩ :=
  fun client hclient => ⟨client, hclient, rfl, List.Subset.refl _⟩

theorem Grows.answered {k : ℕ} {client : Client ι κ ρ ε α} (hk : s.clients[k]? = some client)
    (c : κ) (next : Except ε (ρ c) → Prog κ ρ ε α) (r : Except ε (ρ c)) (store : σ) :
    Grows s (s.answered k client c next r store) := by
  intro other hother
  obtain ⟨j, hj⟩ := List.mem_iff_getElem?.1 hother
  by_cases hjk : k = j
  · subst hjk
    rw [hk] at hj
    cases hj
    exact ⟨_, List.mem_set (List.getElem?_eq_some_iff.1 hk).1 _, rfl, List.subset_append_left _ _⟩
  · refine ⟨other, List.mem_iff_getElem?.2 ⟨j, ?_⟩, rfl, List.Subset.refl _⟩
    rw [Service.answered, List.getElem?_set_ne hjk]
    exact hj

/-- What a client has seen after an answer was seen before, by it or by the client that it was,
or is the answer. -/
theorem mem_history_answered {k : ℕ} {client : Client ι κ ρ ε α}
    (hk : s.clients[k]? = some client) {c : κ} {next : Except ε (ρ c) → Prog κ ρ ε α}
    {r : Except ε (ρ c)} {store : σ} {client' : Client ι κ ρ ε α}
    (hclient' : client' ∈ (s.answered k client c next r store).clients)
    {x : Answered κ ρ ε} (hx : x ∈ client'.history) :
    ∃ old ∈ s.clients, client'.args = old.args ∧ old.history ⊆ client'.history ∧
      (x ∈ old.history ∨ old = client ∧ x = ⟨c, r⟩) := by
  rcases List.mem_or_eq_of_mem_set hclient' with hold | rfl
  · exact ⟨client', hold, rfl, List.Subset.refl _, .inl hx⟩
  · refine ⟨client, List.mem_of_getElem? hk, rfl, List.subset_append_left _ _, ?_⟩
    rcases List.mem_append.1 hx with hx | hx
    · exact .inl hx
    · exact .inr ⟨rfl, List.mem_singleton.1 hx⟩

/-! ## One program alone -/

/-- What a program has returned. -/
def returned? : Prog κ ρ ε α → Option α
  | .ret a => some a
  | _ => none

theorem eq_ret_of_returned? {p : Prog κ ρ ε α} {a : α} (h : returned? p = some a) : p = .ret a := by
  cases p <;> cases h
  rfl

/-- Answer the calls of a client, as long as they are answered: so many of them. -/
def runClient (answer : ι → (c : κ) → σ → Option (Except ε (ρ c) × σ)) :
    ℕ → σ → Client ι κ ρ ε α → σ × Client ι κ ρ ε α
  | 0, store, client => (store, client)
  | n + 1, store, ⟨args, history, .call c next⟩ =>
    match answer args c store with
    | some (r, store') => runClient answer n store' ⟨args, history ++ [⟨c, r⟩], next r⟩
    | none => (store, ⟨args, history, .call c next⟩)
  | _ + 1, store, client => (store, client)

theorem runClient_args (answer : ι → (c : κ) → σ → Option (Except ε (ρ c) × σ)) (n : ℕ) (store : σ)
    (client : Client ι κ ρ ε α) : (runClient answer n store client).2.args = client.args := by
  induction n generalizing store client with
  | zero => rfl
  | succ n ih =>
    obtain ⟨args, history, rest⟩ := client
    cases rest with
    | ret a => rfl
    | raise e => rfl
    | call c next =>
      rw [runClient]
      cases answer args c store with
      | none => rfl
      | some x => exact ih ..

/-- Start a program, and run it before anything else happens. -/
def serve (prog : ι → Prog κ ρ ε α) (answer : ι → (c : κ) → σ → Option (Except ε (ρ c) × σ))
    (n : ℕ) (s : Service σ ι κ ρ ε α) (args : ι) : Service σ ι κ ρ ε α :=
  ⟨(runClient answer n s.store ⟨args, [], prog args⟩).1,
    s.clients ++ [(runClient answer n s.store ⟨args, [], prog args⟩).2]⟩

theorem args_serve (prog : ι → Prog κ ρ ε α)
    (answer : ι → (c : κ) → σ → Option (Except ε (ρ c) × σ)) (n : ℕ) (s : Service σ ι κ ρ ε α)
    (args : ι) : (s.serve prog answer n args).clients.map (·.args) =
      s.clients.map (·.args) ++ [args] := by
  rw [serve, List.map_append, List.map_singleton, runClient_args]

section

variable {answer : ι → (c : κ) → σ → Option (Except ε (ρ c) × σ)}

theorem reaches_runClient
    (hanswer : ∀ args c store r store', answer args c store = some (r, store') →
      Serves args c store r store')
    (n : ℕ) {store : σ} {clients : List (Client ι κ ρ ε α)} {client : Client ι κ ρ ε α}
    (h : Reaches prog Serves Moves s ⟨store, clients ++ [client]⟩) :
    Reaches prog Serves Moves s
      ⟨(runClient answer n store client).1, clients ++ [(runClient answer n store client).2]⟩ := by
  induction n generalizing store client with
  | zero => exact h
  | succ n ih =>
    obtain ⟨args, history, rest⟩ := client
    cases rest with
    | ret a => exact h
    | raise e => exact h
    | call c next =>
      rw [runClient]
      cases hr : answer args c store with
      | none => exact h
      | some x =>
        obtain ⟨r, store'⟩ := x
        have hlast : (clients ++ [(⟨args, history, .call c next⟩ : Client ι κ ρ ε α)])[clients.length]? =
            some ⟨args, history, .call c next⟩ := List.getElem?_concat_length ..
        have hstep := h.tail (.call hlast rfl (hanswer _ _ _ _ _ hr))
        refine ih ?_
        rwa [answered, List.set_append_right _ _ (Nat.le_refl _), Nat.sub_self] at hstep

theorem reaches_serve
    (hanswer : ∀ args c store r store', answer args c store = some (r, store') →
      Serves args c store r store')
    (h : Reaches prog Serves Moves s t) (n : ℕ) (args : ι) :
    Reaches prog Serves Moves s (t.serve prog answer n args) :=
  reaches_runClient hanswer n (h.tail (.start args))

end

end Service

end Effects
