import Mathlib.Data.List.Nodup

/-!
# Taking turns

A rotation is a list of members: whoever is at its front has a turn, and then goes to the
back or leaves.  New members join at the back.

* `Step`, `Run` — rotations, one turn or one arrival at a time; `Run` keeps what holds of
  every list on the way.
* `Ahead` — who comes before whom.
* `Run.fair` — **between two turns of one member every other one that stays has exactly one.**
-/

namespace Rotation

variable {κ : Type}

/-- A turn, whose it is, or the arrival of members. -/
inductive Step : List κ → Option κ → List κ → Prop
  | stay (a : κ) (rest : List κ) : Step (a :: rest) (some a) (rest ++ [a])
  | leave (a : κ) (rest : List κ) : Step (a :: rest) (some a) rest
  | join (l joining : List κ) : Step l none (l ++ joining)

/-- The turns of a run through lists that satisfy `P`. -/
inductive Run (P : List κ → Prop) : List κ → List κ → List κ → Prop
  | nil {l : List κ} : P l → Run P l [] l
  | step {l l' l'' turns : List κ} {turn : Option κ} : P l → Step l turn l' →
      Run P l' turns l'' → Run P l (turn.toList ++ turns) l''

variable {P : List κ → Prop} {l l' l'' turns turns' : List κ}

theorem Run.start (h : Run P l turns l') : P l := by
  cases h with
  | nil hl => exact hl
  | step hl => exact hl

/-! ## Who is ahead -/

/-- One member is ahead of another. -/
def Ahead (a b : κ) (l : List κ) : Prop := ∃ before after, l = before ++ a :: after ∧ b ∈ after

variable {a b c : κ}

theorem Ahead.append (h : Ahead a b l) (joining : List κ) : Ahead a b (l ++ joining) := by
  obtain ⟨before, after, rfl, hb⟩ := h
  refine ⟨before, after ++ joining, ?_, List.mem_append_left _ hb⟩
  rw [List.append_assoc, List.cons_append]

theorem Ahead.tail (h : Ahead a b (c :: l)) (hne : c ≠ a) : Ahead a b l := by
  obtain ⟨before, after, heq, hb⟩ := h
  cases before with
  | nil => exact absurd (List.cons.inj heq).1 hne
  | cons d before => exact ⟨before, after, (List.cons.inj heq).2, hb⟩

/-- Whoever is at the front is ahead of the others. -/
theorem Ahead.mem_tail (h : Ahead a b (a :: l)) : b ∈ l := by
  obtain ⟨before, after, heq, hb⟩ := h
  cases before with
  | nil => rwa [(List.cons.inj heq).2]
  | cons d before =>
    rw [(List.cons.inj heq).2]
    exact List.mem_append_right _ (List.mem_cons_of_mem _ hb)

/-- Nobody is ahead of the front. -/
theorem not_ahead_front (hnodup : (b :: l).Nodup) : ¬ Ahead a b (b :: l) := by
  rintro ⟨before, after, heq, hb⟩
  refine (List.nodup_cons.1 hnodup).1 ?_
  cases before with
  | nil => rwa [(List.cons.inj heq).2]
  | cons d before =>
    rw [(List.cons.inj heq).2]
    exact List.mem_append_right _ (List.mem_cons_of_mem _ hb)

theorem ahead_last (h : a ∈ l) (b : κ) : Ahead a b (l ++ [b]) := by
  obtain ⟨before, after, rfl⟩ := List.append_of_mem h
  exact ⟨before, after ++ [b], by simp, by simp⟩

/-! ## Fairness -/

/-- Up to the next turn of `t`, a member that is ahead of it and stays has one turn, and one
that is behind it has none. -/
theorem Run.count_turns [DecidableEq κ] {t u : κ} {rest : List κ}
    (h : Run (fun l => l.Nodup ∧ u ∈ l) l turns (t :: rest)) (hne : u ≠ t) (hother : t ∉ turns) :
    (Ahead u t l → turns.count u = 1) ∧ (Ahead t u l → turns.count u = 0) := by
  generalize hend : t :: rest = l' at h
  induction h with
  | nil hl =>
    subst hend
    exact ⟨fun hahead => absurd hahead (not_ahead_front hl.1), fun _ => rfl⟩
  | @step l l₁ l₂ turns turn hl hstep hrun ih =>
    have hrest := ih (fun hmem => hother (List.mem_append_right _ hmem)) hend
    cases hstep with
    | join _ joining =>
      exact ⟨fun hahead => hrest.1 (hahead.append joining),
        fun hahead => hrest.2 (hahead.append joining)⟩
    | stay a front =>
      have hat : a ≠ t := by
        rintro rfl
        exact hother (by simp)
      show (_ → (a :: turns).count u = 1) ∧ (_ → (a :: turns).count u = 0)
      by_cases hau : a = u
      · subst hau
        refine ⟨fun hahead => ?_, fun hahead => absurd hahead (not_ahead_front hl.1)⟩
        rw [List.count_cons_self, hrest.2 (ahead_last hahead.mem_tail a)]
      · rw [List.count_cons_of_ne hau]
        exact ⟨fun hahead => hrest.1 ((hahead.tail hau).append _),
          fun hahead => hrest.2 ((hahead.tail hat).append _)⟩
    | leave a front =>
      have hat : a ≠ t := by
        rintro rfl
        exact hother (by simp)
      show (_ → (a :: turns).count u = 1) ∧ (_ → (a :: turns).count u = 0)
      by_cases hau : a = u
      · subst hau
        exact absurd hrun.start.2 (List.nodup_cons.1 hl.1).1
      · rw [List.count_cons_of_ne hau]
        exact ⟨fun hahead => hrest.1 (hahead.tail hau), fun hahead => hrest.2 (hahead.tail hat)⟩

/-- **Between two turns of a member, every other one that is there all the time has exactly
one.** -/
theorem Run.fair [DecidableEq κ] {t u : κ} {rest : List κ}
    (h : Run (fun l => l.Nodup ∧ u ∈ l) (l ++ [t]) turns (t :: rest)) (hne : u ≠ t)
    (hother : t ∉ turns) : turns.count u = 1 := by
  refine (h.count_turns hne hother).1 (ahead_last ?_ t)
  rcases List.mem_append.1 h.start.2 with hu | hu
  · exact hu
  · exact absurd (List.mem_singleton.1 hu) hne

end Rotation
