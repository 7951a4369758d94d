import Mathlib.Data.List.Range

/-!
# Numbered streams

A log holds the entries of several streams.  It is `Numbered` when the entries of each stream
carry the numbers from one on, in the order they were written.  A block of entries of one stream
keeps it numbered when its numbers go on from the length of that stream.
-/

namespace Numbering

variable {α κ : Type*} [DecidableEq κ] {stream : α → κ} {number : α → ℕ} {l es : List α} {k : κ}

/-- The entries of a stream. -/
def entries (stream : α → κ) (l : List α) (k : κ) : List α := l.filter fun e => stream e = k

/-- Every stream is numbered from one on. -/
def Numbered (stream : α → κ) (number : α → ℕ) (l : List α) : Prop :=
  ∀ k, (entries stream l k).map number = List.range' 1 (entries stream l k).length

theorem numbered_nil : Numbered stream number ([] : List α) := fun _ => rfl

theorem entries_append (k : κ) :
    entries stream (l ++ es) k = entries stream l k ++ entries stream es k :=
  List.filter_append ..

/-- A block goes to its own stream. -/
theorem entries_block (h : ∀ e ∈ es, stream e = k) (k' : κ) :
    entries stream es k' = if k' = k then es else [] := by
  by_cases hk : k' = k
  · rw [if_pos hk, hk]
    exact List.filter_eq_self.mpr fun e he => decide_eq_true (h e he)
  · rw [if_neg hk]
    refine List.filter_eq_nil_iff.mpr fun e he hkey => hk ?_
    rw [← of_decide_eq_true hkey, h e he]

/-- **A block that goes on with the numbers of its stream** keeps every stream numbered. -/
theorem Numbered.append (hl : Numbered stream number l) (hstream : ∀ e ∈ es, stream e = k)
    (hnumbers : es.map number = List.range' ((entries stream l k).length + 1) es.length) :
    Numbered stream number (l ++ es) := by
  intro k'
  rw [entries_append, entries_block hstream, List.map_append, hl k']
  by_cases hk : k' = k
  · subst hk
    rw [if_pos rfl, hnumbers, List.length_append, Nat.add_comm _ 1, List.range'_append_1]
  · rw [if_neg hk, List.map_nil, List.append_nil, List.append_nil]

end Numbering
