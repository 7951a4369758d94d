import Mathlib.Data.List.TakeWhile

/-!
# Runs and gaps

Some elements of a list are separators (`p`).  A maximal piece without separators is a run, the
separators between two runs are a gap.

* `IsRun`, `IsGap`, `Break` — a run, a gap, and what may come after a run.
* `append_unique` — where a run ends is determined.
* `cases_run`, `exists_run` — a list starts with a separator or a run; after a gap there is a run.
* `runs` — all of them, in order.
-/

namespace Runs

variable {α : Type*} {p : α → Bool}

/-- No element is a separator, said by a test. -/
theorem none_of_all {l : List α} (h : l.all (fun a => !p a) = true) : ∀ a ∈ l, p a = false := by
  intro a ha
  simpa using List.all_eq_true.1 h a ha

/-- Elements that are no separators, at least one. -/
structure IsRun (p : α → Bool) (n : List α) : Prop where
  ne_nil : n ≠ []
  all : ∀ a ∈ n, p a = false

/-- Separators, at least one. -/
structure IsGap (p : α → Bool) (w : List α) : Prop where
  ne_nil : w ≠ []
  all : ∀ a ∈ w, p a = true

/-- The list is empty or begins with a separator. -/
def Break (p : α → Bool) (l : List α) : Prop := ∀ a ∈ l.head?, p a = true

variable {x x' y y' n w l : List α} {a : α}

theorem break_nil : Break p [] := by
  intro a ha
  cases ha

theorem break_cons : Break p (a :: l) ↔ p a = true := by
  simp [Break]

theorem IsGap.break (h : IsGap p w) : Break p (w ++ l) := by
  obtain ⟨hne, hall⟩ := h
  cases w with
  | nil => exact absurd rfl hne
  | cons a w => exact break_cons.mpr (hall a List.mem_cons_self)

theorem takeWhile_of_break (hx : ∀ a ∈ x, p a = false) (hy : Break p y) :
    (x ++ y).takeWhile (fun a => !p a) = x := by
  rw [List.takeWhile_append_of_pos fun a ha => by rw [hx a ha]; rfl]
  cases y with
  | nil => rw [List.takeWhile_nil, List.append_nil]
  | cons a y => rw [List.takeWhile_cons, break_cons.mp hy, Bool.not_true, if_neg Bool.false_ne_true,
      List.append_nil]

/-- Where a run ends is determined. -/
theorem append_unique (h : x ++ y = x' ++ y') (hx : ∀ a ∈ x, p a = false)
    (hx' : ∀ a ∈ x', p a = false) (hy : Break p y) (hy' : Break p y') : x = x' ∧ y = y' := by
  have htake := congrArg (List.takeWhile fun a => !p a) h
  rw [takeWhile_of_break hx hy, takeWhile_of_break hx' hy'] at htake
  subst htake
  exact ⟨rfl, List.append_cancel_left h⟩

theorem break_dropWhile (p : α → Bool) (l : List α) : Break p (l.dropWhile fun a => !p a) := by
  intro a ha
  have hnot := List.head?_dropWhile_not (fun a => !p a) l
  rw [ha] at hnot
  simpa using hnot

/-- A list starts with a separator or a run. -/
theorem cases_run (p : α → Bool) (l : List α) :
    l = [] ∨ (∃ a l', p a = true ∧ l = a :: l') ∨
      ∃ n l', IsRun p n ∧ Break p l' ∧ l = n ++ l' := by
  cases l with
  | nil => exact .inl rfl
  | cons a l =>
    by_cases ha : p a = true
    · exact .inr (.inl ⟨a, l, ha, rfl⟩)
    · refine .inr (.inr ⟨(a :: l).takeWhile fun a => !p a, (a :: l).dropWhile fun a => !p a,
        ⟨?_, ?_⟩, break_dropWhile p _, List.takeWhile_append_dropWhile.symm⟩)
      · simp [ha]
      · intro b hb
        simpa using List.mem_takeWhile_imp hb

/-- After a run comes a gap and the next run, if there is one. -/
theorem exists_run (hl : Break p l) (h : ∃ a ∈ l, p a = false) :
    ∃ w n l', IsGap p w ∧ IsRun p n ∧ Break p l' ∧ l = w ++ (n ++ l') := by
  induction l with
  | nil =>
    obtain ⟨a, ha, -⟩ := h
    exact absurd ha List.not_mem_nil
  | cons c l ih =>
    have hc : p c = true := break_cons.mp hl
    obtain ⟨a, ha, hpa⟩ := h
    have hmem : a ∈ l := by
      rcases List.mem_cons.mp ha with rfl | hmem
      · rw [hc] at hpa
        cases hpa
      · exact hmem
    rcases cases_run p l with rfl | ⟨b, l', hb, rfl⟩ | ⟨n, l', hn, hl', rfl⟩
    · exact absurd hmem List.not_mem_nil
    · obtain ⟨w, n, l'', hw, hn, hl'', heq⟩ := ih (break_cons.mpr hb) ⟨a, hmem, hpa⟩
      refine ⟨c :: w, n, l'', ⟨List.cons_ne_nil c w, ?_⟩, hn, hl'', congrArg (c :: ·) heq⟩
      exact List.forall_mem_cons.mpr ⟨hc, hw.all⟩
    · refine ⟨[c], n, l', ⟨List.cons_ne_nil c [], ?_⟩, hn, hl', rfl⟩
      exact List.forall_mem_singleton.mpr hc

/-- The runs of a list, in order. -/
def runs (p : α → Bool) (l : List α) : List (List α) :=
  (l.splitOnP p).filter fun n => !n.isEmpty

theorem runs_nil : runs p [] = [] := rfl

theorem runs_cons (ha : p a = true) : runs p (a :: l) = runs p l := by
  have h : ([] ++ a :: l).splitOnP p = [] :: l.splitOnP p :=
    List.splitOnP_append_cons_of_forall_mem (by simp) a ha l
  rw [List.nil_append] at h
  rw [runs, h]
  rfl

theorem runs_append (hn : IsRun p n) (hl : Break p l) : runs p (n ++ l) = n :: runs p l := by
  have hne : n.isEmpty = false := by simpa using hn.ne_nil
  cases l with
  | nil =>
    rw [List.append_nil, runs, List.splitOnP_eq_singleton hn.all]
    simp [hne, runs_nil]
  | cons a l =>
    have ha := break_cons.mp hl
    rw [runs_cons ha, runs, List.splitOnP_append_cons_of_forall_mem hn.all a ha]
    simp [hne, runs]

theorem runs_gap (hw : ∀ a ∈ w, p a = true) : runs p (w ++ l) = runs p l := by
  induction w with
  | nil => rfl
  | cons a w ih =>
    rw [List.cons_append, runs_cons (hw a List.mem_cons_self)]
    exact ih fun b hb => hw b (List.mem_cons_of_mem a hb)

end Runs
