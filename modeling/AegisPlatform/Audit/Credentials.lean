import AegisPlatform.Audit.Events
import Mathlib.Algebra.Ring.Parity
import Mathlib.Data.List.Induction

/-!
# Announced credentials

A credential is a run of a text after a run that announces it and a gap.  A match takes the run
after the keyword along, whatever it is: where that run announces a credential itself, its
keyword is gone, and the credential stays.

* `announcements` — how many runs before the credential announce the next, without a break.
* `redact_credential` — what becomes of the credential, by `taken`: is its keyword still there?
* `Place` — a text inside nested details.
* `credential_hidden_iff` — **a credential is hidden exactly where that number is odd.**
-/

namespace AegisPlatform

open Runs Substitution

namespace WordCharacters

variable {W : WordCharacters} {p l w value post : List Char}

/-- The runs at the end of the text that announce the next, counted up to one that does not. -/
def announcements (W : WordCharacters) (p : List Char) : ℕ :=
  ((runs isSpace p).reverse.takeWhile W.announces).length

/-- After a run: does its keyword take the next run along?  Not if it was taken itself. -/
def takes (W : WordCharacters) (taken : Bool) (n : List Char) : Bool := !taken && W.announces n

/-- Is the run after the text taken? -/
def taken (W : WordCharacters) (p : List Char) : Bool := (runs isSpace p).foldl W.takes false

/-- Of announcements in a row every other one is heard. -/
theorem taken_iff : W.taken p = true ↔ Odd (W.announcements p) := by
  unfold taken announcements
  induction runs isSpace p using List.reverseRecOn with
  | nil => simp
  | append_singleton ns n ih =>
    rw [List.foldl_append, List.reverse_append]
    show W.takes (ns.foldl W.takes false) n = true ↔
      Odd ((n :: ns.reverse).takeWhile W.announces).length
    by_cases h : W.announces n = true
    · rw [List.takeWhile_cons_of_pos h, List.length_cons, Nat.odd_add_one, ← ih, takes, h,
        Bool.and_true, Bool.not_eq_true', Bool.not_eq_true]
    · rw [List.takeWhile_cons_of_neg h, takes, Bool.eq_false_of_not_eq_true h, Bool.and_false]
      simp

/-- The text ends in a run. -/
def EndsInRun (p : List Char) : Prop := ∃ c ∈ p.getLast?, isSpace c = false

theorem endsInRun_of_append {u : List Char} (h : EndsInRun (u ++ l)) (hl : l ≠ []) :
    EndsInRun l := by
  obtain ⟨c, hc, hspace⟩ := h
  rw [List.getLast?_append_of_ne_nil u hl] at hc
  exact ⟨c, hc, hspace⟩

theorem EndsInRun.exists_mem (h : EndsInRun p) : ∃ c ∈ p, isSpace c = false := by
  obtain ⟨c, hc, hspace⟩ := h
  exact ⟨c, List.mem_of_getLast? hc, hspace⟩

theorem redact_gap (hw : IsGap isSpace w) : W.redact (w ++ l) = w ++ W.redact l := by
  obtain ⟨-, hall⟩ := hw
  induction w with
  | nil => rfl
  | cons c w ih =>
    rw [List.cons_append, redact_space (hall c List.mem_cons_self),
      ih fun d hd => hall d (List.mem_cons_of_mem c hd)]
    rfl

/-- What is redacted of a text before a credential, and whether the credential goes with it. -/
def Splits (W : WordCharacters) (p x : List Char) : Prop :=
  ∀ w value post, IsGap isSpace w → IsRun isSpace value → Break isSpace post →
    W.redact (p ++ (w ++ (value ++ post))) =
      x ++ if W.taken p then W.redact post else w ++ W.redact (value ++ post)

theorem splits_last {n : List Char} (hn : IsRun isSpace n) : ∃ x, Splits W n x := by
  have hruns : runs isSpace n = [n] := by
    have h := runs_append hn (break_nil (p := isSpace))
    rwa [List.append_nil] at h
  have htaken : W.taken n = W.announces n := by
    rw [taken, hruns]
    rfl
  by_cases h : W.announces n = true
  · obtain ⟨u, kw, rfl, hkw, hu⟩ := announces_iff.mp h
    refine ⟨u ++ REDACTED.toList, fun w value post hw hvalue hpost => ?_⟩
    rw [redact_announced hn hkw hu hw hvalue hpost, htaken, if_pos h, List.append_assoc]
  · refine ⟨n, fun w value post hw hvalue hpost => ?_⟩
    rw [redact_run hn hw.break fun ha => h ha.1, redact_gap hw, htaken, if_neg h]

theorem splits_step {n : List Char} {x : List Char} (hn : IsRun isSpace n) (hl : Break isSpace l)
    (hne : l ≠ []) (h : ¬W.announces n = true) (hx : Splits W l x) : Splits W (n ++ l) (n ++ x) := by
  have htaken : W.taken (n ++ l) = W.taken l := by
    rw [taken, runs_append hn hl, List.foldl_cons, takes, Bool.eq_false_of_not_eq_true h]
    rfl
  intro w value post hw hvalue hpost
  have hbreak : Break isSpace (l ++ (w ++ (value ++ post))) := by
    cases l with
    | nil => exact absurd rfl hne
    | cons c l => exact break_cons.mpr (break_cons.mp hl)
  rw [List.append_assoc, redact_run hn hbreak fun ha => h ha.1, hx w value post hw hvalue hpost,
    htaken, List.append_assoc]

/-- **What becomes of a credential**: before it stands what was made of the text before, and
either it is taken along or it stays to be looked at. -/
theorem redact_credential (p : List Char) (hp : EndsInRun p) : ∃ x, Splits W p x := by
  -- by induction on the length, since a match takes two runs at a time
  induction hlength : p.length using Nat.strong_induction_on generalizing p with
  | _ k ih =>
    subst hlength
    rcases cases_run isSpace p with rfl | ⟨c, l, hc, rfl⟩ | ⟨n, l, hn, hl, rfl⟩
    · obtain ⟨c, hc, -⟩ := hp
      cases hc
    · have hl : l ≠ [] := by
        rintro rfl
        obtain ⟨d, hd, hspace⟩ := hp
        cases hd
        exact absurd (hc.symm.trans hspace) (by decide)
      obtain ⟨x, hx⟩ := ih l.length (by simp) l (endsInRun_of_append (u := [c]) hp hl) rfl
      have htaken : W.taken (c :: l) = W.taken l := by
        rw [taken, runs_cons hc]
        rfl
      refine ⟨c :: x, fun w value post hw hvalue hpost => ?_⟩
      rw [List.cons_append, redact_space hc, hx w value post hw hvalue hpost, htaken]
      rfl
    · by_cases hnil : l = []
      · subst hnil
        rw [List.append_nil]
        exact splits_last hn
      · have hend := endsInRun_of_append hp hnil
        have hpos := List.length_pos_iff.mpr hn.ne_nil
        by_cases h : W.announces n = true
        · obtain ⟨w', m, rest, hw', hm, hrest, rfl⟩ := exists_run hl hend.exists_mem
          obtain ⟨u, kw, rfl, hkw, hu⟩ := announces_iff.mp h
          have htaken : W.taken (u ++ kw ++ (w' ++ (m ++ rest))) = W.taken rest := by
            rw [taken, runs_append hn hl, runs_gap hw'.all, runs_append hm hrest, List.foldl_cons,
              List.foldl_cons, takes, takes, h]
            rfl
          by_cases hrestnil : rest = []
          · subst hrestnil
            refine ⟨u ++ REDACTED.toList, fun w value post hw hvalue hpost => ?_⟩
            have hassoc : u ++ kw ++ (w' ++ (m ++ [])) ++ (w ++ (value ++ post)) =
                u ++ kw ++ (w' ++ (m ++ (w ++ (value ++ post)))) := by
              simp only [List.append_assoc, List.nil_append]
            rw [htaken, hassoc, redact_announced hn hkw hu hw' hm hw.break, redact_gap hw,
              List.append_assoc]
            rfl
          · have hshorter : rest.length < (u ++ kw ++ (w' ++ (m ++ rest))).length := by
              simp only [List.length_append] at hpos ⊢
              omega
            have hendrest : EndsInRun rest := by
              refine endsInRun_of_append (u := w' ++ m) ?_ hrestnil
              rw [List.append_assoc]
              exact hend
            obtain ⟨x, hx⟩ := ih rest.length hshorter rest hendrest rfl
            refine ⟨u ++ (REDACTED.toList ++ x), fun w value post hw hvalue hpost => ?_⟩
            have hbreak : Break isSpace (rest ++ (w ++ (value ++ post))) := by
              cases rest with
              | nil => exact absurd rfl hrestnil
              | cons c rest => exact break_cons.mpr (break_cons.mp hrest)
            have hassoc : u ++ kw ++ (w' ++ (m ++ rest)) ++ (w ++ (value ++ post)) =
                u ++ kw ++ (w' ++ (m ++ (rest ++ (w ++ (value ++ post))))) := by
              simp only [List.append_assoc]
            rw [htaken, hassoc, redact_announced hn hkw hu hw' hm hbreak,
              hx w value post hw hvalue hpost]
            simp only [List.append_assoc]
        · have hshorter : l.length < (n ++ l).length := by
            rw [List.length_append]
            omega
          obtain ⟨x, hx⟩ := ih l.length hshorter l hend rfl
          exact ⟨n ++ x, splits_step hn hl hnil h hx⟩

/-- The situation: a keyword that begins a word, and a gap. -/
structure Announced (W : WordCharacters) (pre kw w : List Char) : Prop where
  keyword : isKeyword kw = true
  initial : W.Fresh (before none pre)
  gap : IsGap isSpace w

theorem endsInRun_keyword {pre kw : List Char} (hkw : isKeyword kw = true) :
    EndsInRun (pre ++ kw) := by
  have hne : kw ≠ [] := fun hnil => by
    rw [hnil] at hkw
    cases hkw
  refine ⟨kw.getLast hne, ?_, not_isSpace_keyword hkw _ (List.getLast_mem hne)⟩
  rw [List.getLast?_append_of_ne_nil pre hne, List.getLast?_eq_some_getLast hne]
  rfl

/-- **A credential leaves no trace in a text exactly where its keyword was not taken** by the
match before. -/
theorem redact_eq_iff {pre kw : List Char} (h : Announced W pre kw w) (hpost : Break isSpace post) :
    (∀ value value', IsRun isSpace value → IsRun isSpace value' →
      W.redact (pre ++ kw ++ (w ++ (value ++ post))) =
        W.redact (pre ++ kw ++ (w ++ (value' ++ post)))) ↔ Odd (W.announcements (pre ++ kw)) := by
  obtain ⟨x, hx⟩ := redact_credential (W := W) (pre ++ kw) (endsInRun_keyword h.keyword)
  rw [← taken_iff]
  constructor
  · intro hsame
    by_contra htaken
    -- a letter that stays behind
    have hletter : ∀ c ∈ ['a', 'b'], IsRun isSpace [c] ∧
        W.redact ([c] ++ post) = c :: W.redact post := by
      intro c hc
      have hspace : ∀ c ∈ ['a', 'b'], isSpace c = false := none_of_all (by decide)
      have hrun : IsRun isSpace [c] :=
        ⟨List.cons_ne_nil c [], List.forall_mem_singleton.mpr (hspace c hc)⟩
      refine ⟨hrun, redact_run hrun hpost fun ha => ?_⟩
      obtain ⟨u, kw, heq, hkw, -⟩ := announces_iff.mp ha.1
      have hlength := congrArg List.length heq
      rw [List.length_append, length_keyword hkw] at hlength
      simp at hlength
    obtain ⟨ha, hra⟩ := hletter 'a' (by decide)
    obtain ⟨hb, hrb⟩ := hletter 'b' (by decide)
    have heq := hsame ['a'] ['b'] ha hb
    rw [hx w _ post h.gap ha hpost, hx w _ post h.gap hb hpost, if_neg htaken, if_neg htaken, hra,
      hrb] at heq
    have hcons := List.append_cancel_left (List.append_cancel_left heq)
    exact absurd (List.cons.inj hcons).1 (by decide)
  · intro htaken value value' hvalue hvalue'
    rw [hx w value post h.gap hvalue hpost, hx w value' post h.gap hvalue' hpost, if_pos htaken,
      if_pos htaken]

/-! ## Inside details -/

/-- A place inside a JSON value. -/
inductive Place where
  | here
  | item (left : List JsonValue) (place : Place) (right : List JsonValue)
  | field (left : Dict) (key : String) (place : Place) (right : Dict)

namespace Place

/-- The value with a text put in the place. -/
def fill : Place → JsonValue → JsonValue
  | here, value => value
  | item left place right, value => .list (left ++ place.fill value :: right)
  | field left key place right, value => .obj (left ++ (key, place.fill value) :: right)

/-- No key on the way is sensitive. -/
def Visible : Place → Prop
  | here => True
  | item _ place _ => place.Visible
  | field _ key place _ => isSensitive key = false ∧ place.Visible

end Place

section

variable (W)

theorem redactValues_append (xs ys : List JsonValue) :
    redactValues W (xs ++ ys) = redactValues W xs ++ redactValues W ys := by
  induction xs with
  | nil => rfl
  | cons x xs ih => rw [List.cons_append, redactValues, ih, redactValues, List.cons_append]

theorem redactDetails_append (d d' : Dict) :
    redactDetails W (d ++ d') = redactDetails W d ++ redactDetails W d' := by
  induction d with
  | nil => rfl
  | cons field d ih => rw [List.cons_append, redactDetails, ih, redactDetails, List.cons_append]

theorem redactDetails_field_iff {key : String} (hkey : isSensitive key = false) (left right : Dict)
    (value value' : JsonValue) :
    redactDetails W (left ++ (key, value) :: right) =
        redactDetails W (left ++ (key, value') :: right) ↔
      redactValue W value = redactValue W value' := by
  rw [redactDetails_append, redactDetails_append, redactDetails, redactDetails, hkey]
  simp

/-- What is in a visible place is redacted as it would be alone. -/
theorem redactValue_fill_iff (place : Place) (h : place.Visible) (value value' : JsonValue) :
    redactValue W (place.fill value) = redactValue W (place.fill value') ↔
      redactValue W value = redactValue W value' := by
  induction place with
  | here => exact Iff.rfl
  | item left place right ih =>
    rw [Place.fill, Place.fill, redactValue, redactValue, redactValues_append, redactValues_append,
      redactValues, redactValues, ← ih h]
    simp
  | field left key place right ih =>
    rw [Place.fill, Place.fill, redactValue, redactValue, JsonValue.obj.injEq,
      redactDetails_field_iff W h.1, ih h.2]

theorem redactText_ofList (l : List Char) :
    redactText W (String.ofList l) = String.ofList (W.redact l) := by
  rw [redactText, String.toList_ofList]
  rfl

end

/-- **A credential is hidden exactly where its keyword was not taken by the match before.**  In
a text in any place under no sensitive key: all credentials after one keyword leave the same
record if and only if the number of announcements up to it, without a break, is odd. -/
theorem credential_hidden_iff (left right : Dict) {key : String} (hkey : isSensitive key = false)
    {place : Place} (hplace : place.Visible) {pre kw : List Char} (h : Announced W pre kw w)
    (hpost : Break isSpace post) :
    (∀ value value', IsRun isSpace value → IsRun isSpace value' →
      W.redactDetails (left ++ (key, place.fill
          (.str (String.ofList (pre ++ kw ++ (w ++ (value ++ post)))))) :: right) =
        W.redactDetails (left ++ (key, place.fill
          (.str (String.ofList (pre ++ kw ++ (w ++ (value' ++ post)))))) :: right)) ↔
      Odd (W.announcements (pre ++ kw)) := by
  rw [← redact_eq_iff h hpost]
  simp only [redactDetails_field_iff W hkey, redactValue_fill_iff W place hplace, redactValue,
    redactText_ofList, JsonValue.str.injEq, String.ofList_inj]

/-- A credential after one keyword is hidden. -/
theorem credential_hidden_once :
    asciiWords.redactDetails [("note", .str (String.ofList
        ("sent ".toList ++ "Bearer".toList ++ (" ".toList ++ ("hunter2".toList ++ [])))))] =
      asciiWords.redactDetails [("note", .str (String.ofList
        ("sent ".toList ++ "Bearer".toList ++ (" ".toList ++ ("letmein".toList ++ [])))))] := by
  have hsituation : Announced asciiWords "sent ".toList "Bearer".toList " ".toList :=
    ⟨by decide, rfl, ⟨by decide, List.all_eq_true.1 (by decide)⟩⟩
  have hodd : Odd (asciiWords.announcements ("sent ".toList ++ "Bearer".toList)) := by
    decide +kernel
  have hkey : isSensitive "note" = false := by decide +kernel
  have hplace : Place.here.Visible := trivial
  exact (credential_hidden_iff [] [] hkey hplace hsituation break_nil).mpr hodd _ _
    ⟨by decide, none_of_all (by decide)⟩ ⟨by decide, none_of_all (by decide)⟩

/-- A credential after a keyword that was itself taken for a credential is not. -/
theorem credential_shown_twice :
    asciiWords.redactDetails [("note", .str "Bearer Bearer hunter2")] ≠
      asciiWords.redactDetails [("note", .str "Bearer Bearer letmein")] := by
  intro h
  have htexts : asciiWords.redactText "Bearer Bearer hunter2" =
      asciiWords.redactText "Bearer Bearer letmein" := by
    have hkey : isSensitive "note" = false := by decide +kernel
    have hvalues := (redactDetails_field_iff asciiWords hkey [] [] _ _).mp h
    exact JsonValue.str.inj hvalues
  exact absurd htexts (by decide +kernel)

end WordCharacters

end AegisPlatform
