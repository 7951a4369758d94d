import AegisPlatform.Domain.Events
import AegisPlatform.Lib.Runs
import AegisPlatform.Lib.Substitution
import Mathlib.Data.List.Infix

/-!
# Redaction of audit details

`redact_details` replaces what is stored under a sensitive key and what a text announces by the
word `Bearer`.

* `isSensitive`, `bearerMatch`, `redactText`, `redactDetails` — the code.
* `Announces` — a run of a text that ends in the keyword: `redact_announced` and `redact_run`
  are the two things that can happen to a run.
* `Redacted`, `Agree` — no secret is left; two values that differ in secrets only.
-/

namespace AegisPlatform

open Runs Substitution

/-! ## The patterns -/

/-- The marker. -/
def REDACTED : String := "[REDACTED]"

/-- The word characters of a text pattern, `\w`.  Of those beyond ASCII only this much is used,
that no whitespace is among them. -/
structure WordCharacters where
  isWord : Char → Bool
  ascii : ∀ c : Char, c.toNat < 128 → isWord c = (c.isAlphanum || c = '_')
  space : ∀ c, isSpace c = true → isWord c = false

/-- A character as a pattern that ignores case sees it: four characters beyond ASCII are
compared as `i`, `s` and `k`. -/
def foldCase (c : Char) : Char :=
  if c.toNat = 0x130 ∨ c.toNat = 0x131 then 'i'
  else if c.toNat = 0x17F then 's'
  else if c.toNat = 0x212A then 'k'
  else c.toLower

/-- `_SENSITIVE_KEYS.search(key)`. -/
def isSensitive (key : String) : Bool :=
  ["authorization", "credential", "password", "prompt", "secret", "token"].any fun word =>
    word.toList <:+: key.toList.map foldCase

/-- The keyword, whatever its case. -/
def isKeyword (l : List Char) : Bool := l.map Char.toLower = "bearer".toList

namespace WordCharacters

/-- The word characters of ASCII. -/
def asciiWords : WordCharacters where
  isWord c := c.isAlphanum || c = '_'
  ascii _ _ := rfl
  space c hc := by
    have hn : c.toNat < 48 ∨ 123 ≤ c.toNat := by
      simp only [isSpace, Bool.or_eq_true, Bool.and_eq_true, decide_eq_true_eq] at hc
      omega
    have hunderscore : c ≠ '_' := by
      rintro rfl
      exact absurd hc (by decide)
    have halpha : c.isAlphanum = false := by
      by_contra h
      have h : ((decide (c.val ≥ 'A'.val ∧ c.val ≤ 'Z'.val) ||
          (decide (c.val ≥ 'a'.val) && decide (c.val ≤ 'z'.val))) ||
          (decide (c.val ≥ '0'.val) && decide (c.val ≤ '9'.val))) = true :=
        Bool.eq_true_of_not_eq_false h
      simp only [Bool.or_eq_true, Bool.and_eq_true, decide_eq_true_eq, ge_iff_le,
        UInt32.le_iff_toNat_le] at h
      simp at h
      omega
    simp [halpha, hunderscore]

variable (W : WordCharacters)

/-- `\b`: one of the characters before and after the place is a word character. -/
def atBoundary (prev : Option Char) (l : List Char) : Bool :=
  prev.any W.isWord != l.head?.any W.isWord

/-- `_BEARER_VALUE`, that is `\bBearer\s+\S+`. -/
def bearerMatch : Matcher Char := fun prev l =>
  let spaces := (l.drop 6).takeWhile isSpace
  let value := ((l.drop 6).dropWhile isSpace).takeWhile fun c => !isSpace c
  if W.atBoundary prev l && isKeyword (l.take 6) && !spaces.isEmpty && !value.isEmpty then
    some (6 + spaces.length + value.length)
  else none

/-- `_BEARER_VALUE.sub(REDACTED, value)`. -/
def redactText (text : String) : String :=
  String.ofList (sub W.bearerMatch REDACTED.toList none 0 text.toList)

mutual

/-- `redact_details`. -/
def redactDetails : Dict → Dict
  | [] => []
  | (key, value) :: rest =>
    (key, if isSensitive key then .str REDACTED else redactValue value) :: redactDetails rest

/-- `_redact_value`. -/
def redactValue : JsonValue → JsonValue
  | .str text => .str (redactText W text)
  | .obj fields => .obj (redactDetails fields)
  | .list xs => .list (redactValues xs)
  | value => value

/-- `_redact_value` of the items of a list. -/
def redactValues : List JsonValue → List JsonValue
  | [] => []
  | x :: xs => redactValue x :: redactValues xs

end

/-! ## A run of a text -/

/-- Not in the middle of a word: the start of the text, or after another character. -/
def Fresh (prev : Option Char) : Prop := prev.any W.isWord = false

/-- The run ends in the keyword, which begins a word. -/
def announces (n : List Char) : Bool :=
  isKeyword (n.drop (n.length - 6)) && !(n.take (n.length - 6)).getLast?.any W.isWord

variable {W} {prev : Option Char} {kw n w value l rest : List Char}

theorem length_keyword (h : isKeyword kw = true) : kw.length = 6 := by
  have hlength := congrArg List.length (of_decide_eq_true h)
  simpa using hlength

theorem toLower_cases {c d : Char} (h : c.toLower = d) :
    c = d ∨ (65 ≤ c.toNat ∧ c.toNat ≤ 90) := by
  by_cases hupper : c.val ≥ 'A'.val ∧ c.val ≤ 'Z'.val
  · exact .inr ⟨UInt32.le_iff_toNat_le.mp hupper.1, UInt32.le_iff_toNat_le.mp hupper.2⟩
  · have hsame : c.toLower = c := dif_neg hupper
    exact .inl (hsame.symm.trans h)

theorem isSpace_upper {c : Char} (h : 65 ≤ c.toNat ∧ c.toNat ≤ 90) : isSpace c = false := by
  simp only [isSpace, Bool.or_eq_false_iff, Bool.and_eq_false_iff, decide_eq_false_iff_not]
  omega

theorem isWord_upper {c : Char} (h : 65 ≤ c.toNat ∧ c.toNat ≤ 90) : W.isWord c = true := by
  have hupper : c.isUpper = true :=
    decide_eq_true ⟨UInt32.le_iff_toNat_le.mpr h.1, UInt32.le_iff_toNat_le.mpr h.2⟩
  rw [W.ascii c (by omega)]
  show (c.isUpper || c.isLower || c.isDigit || _) = true
  rw [hupper]
  rfl

/-- No character of the keyword is a separator. -/
theorem not_isSpace_keyword (h : isKeyword kw = true) : ∀ c ∈ kw, isSpace c = false := by
  intro c hc
  have hmem : c.toLower ∈ "bearer".toList := by
    rw [← of_decide_eq_true h]
    exact List.mem_map_of_mem hc
  rcases toLower_cases (rfl : c.toLower = c.toLower) with heq | hupper
  · rw [← heq] at hmem
    have hall : ∀ d ∈ "bearer".toList, isSpace d = false := none_of_all (by decide)
    exact hall c hmem
  · exact isSpace_upper hupper

/-- The keyword starts with a word character. -/
theorem head_keyword (h : isKeyword kw = true) : (kw ++ l).head?.any W.isWord = true := by
  have hmap := of_decide_eq_true h
  cases kw with
  | nil => cases hmap
  | cons c kw =>
    have hc : c.toLower = 'b' := (List.cons.inj hmap).1
    show W.isWord c = true
    rcases toLower_cases hc with rfl | hupper
    · rw [W.ascii 'b' (by decide)]
      rfl
    · exact isWord_upper hupper

theorem atBoundary_keyword (h : isKeyword kw = true) :
    W.atBoundary prev (kw ++ l) = true ↔ W.Fresh prev := by
  rw [atBoundary, head_keyword h, Fresh]
  cases prev.any W.isWord <;> simp

theorem takeWhile_gap (hw : IsGap isSpace w) (hvalue : IsRun isSpace value) :
    (w ++ (value ++ rest)).takeWhile isSpace = w ∧
      (w ++ (value ++ rest)).dropWhile isSpace = value ++ rest := by
  obtain ⟨hne, hall⟩ := hvalue
  cases value with
  | nil => exact absurd rfl hne
  | cons c value =>
    have hc := hall c List.mem_cons_self
    rw [List.takeWhile_append_of_pos hw.all, List.dropWhile_append_of_pos hw.all]
    simp [hc]

/-- **What a match is**: the keyword at the start of a word, a gap and a run. -/
theorem bearerMatch_eq_some {k : ℕ} : W.bearerMatch prev l = some k ↔
    ∃ kw w value rest, l = kw ++ (w ++ (value ++ rest)) ∧ isKeyword kw = true ∧ W.Fresh prev ∧
      IsGap isSpace w ∧ IsRun isSpace value ∧ Break isSpace rest ∧
      k = (kw ++ (w ++ value)).length := by
  constructor
  · intro h
    simp only [bearerMatch] at h
    split at h
    · rename_i hc
      simp only [Bool.and_eq_true, Bool.not_eq_true', List.isEmpty_eq_false_iff] at hc
      obtain ⟨⟨⟨hboundary, hkw⟩, hspaces⟩, hvalue⟩ := hc
      refine ⟨l.take 6, (l.drop 6).takeWhile isSpace,
        ((l.drop 6).dropWhile isSpace).takeWhile fun c => !isSpace c,
        ((l.drop 6).dropWhile isSpace).dropWhile fun c => !isSpace c, ?_, hkw, ?_,
        ⟨hspaces, fun c hc => List.mem_takeWhile_imp hc⟩, ⟨hvalue, fun c hc => ?_⟩,
        break_dropWhile isSpace _, ?_⟩
      · rw [List.takeWhile_append_dropWhile, List.takeWhile_append_dropWhile,
          List.take_append_drop]
      · rw [← List.take_append_drop 6 l, atBoundary_keyword hkw] at hboundary
        exact hboundary
      · simpa using List.mem_takeWhile_imp hc
      · rw [List.length_append, List.length_append, length_keyword hkw]
        have := Option.some.inj h
        omega
    · cases h
  · rintro ⟨kw, w, value, rest, rfl, hkw, hfresh, hw, hvalue, hrest, rfl⟩
    have hlength := length_keyword hkw
    obtain ⟨htake, hdrop⟩ : (w ++ (value ++ rest)).takeWhile isSpace = w ∧
        (w ++ (value ++ rest)).dropWhile isSpace = value ++ rest := takeWhile_gap hw hvalue
    have hkw6 : (kw ++ (w ++ (value ++ rest))).take 6 = kw := List.take_left' hlength
    have hrest6 : (kw ++ (w ++ (value ++ rest))).drop 6 = w ++ (value ++ rest) :=
      List.drop_left' hlength
    have hcond : (W.atBoundary prev (kw ++ (w ++ (value ++ rest))) && isKeyword kw &&
        !w.isEmpty && !value.isEmpty) = true := by
      rw [(atBoundary_keyword hkw).mpr hfresh, hkw]
      simp [hw.ne_nil, hvalue.ne_nil]
    simp only [bearerMatch, hkw6, hrest6, htake, hdrop, takeWhile_of_break hvalue.all hrest,
      hcond, if_true, List.length_append, hlength]
    exact congrArg some (Nat.add_assoc 6 _ _)

/-- Only whether the place is fresh matters of what came before. -/
theorem bearerMatch_fresh (h : W.Fresh prev) : W.bearerMatch prev l = W.bearerMatch none l := by
  have hboundary : W.atBoundary prev l = W.atBoundary none l := by
    rw [atBoundary, atBoundary, show prev.any W.isWord = false from h]
    rfl
  simp only [bearerMatch, hboundary]

/-- No match starts at a separator. -/
theorem bearerMatch_break (hl : Break isSpace l) : W.bearerMatch prev l = none := by
  rw [Option.eq_none_iff_forall_not_mem]
  intro k hk
  obtain ⟨kw, w, value, rest, rfl, hkw, -⟩ := bearerMatch_eq_some.mp hk
  cases kw with
  | nil => cases length_keyword hkw
  | cons c kw =>
    have hc := not_isSpace_keyword hkw c List.mem_cons_self
    rw [List.cons_append, break_cons, hc] at hl
    cases hl

theorem fresh_none : W.Fresh none := rfl

theorem fresh_space {c : Char} (hc : isSpace c = true) : W.Fresh (some c) :=
  W.space c hc

/-- What is before a place in a run decides about the keyword there. -/
theorem fresh_before (u : List Char) (h : W.Fresh prev) :
    W.Fresh (before prev u) ↔ u.getLast?.any W.isWord = false := by
  cases hu : u.getLast? with
  | none =>
    rw [List.getLast?_eq_none_iff] at hu
    subst hu
    exact iff_of_true h rfl
  | some c =>
    rw [before_of_getLast? hu]
    rfl

theorem announces_iff : W.announces n = true ↔
    ∃ u kw, n = u ++ kw ∧ isKeyword kw = true ∧ u.getLast?.any W.isWord = false := by
  rw [announces, Bool.and_eq_true, Bool.not_eq_true']
  constructor
  · rintro ⟨hkw, hu⟩
    exact ⟨_, _, (List.take_append_drop _ n).symm, hkw, hu⟩
  · rintro ⟨u, kw, rfl, hkw, hu⟩
    have hlength : (u ++ kw).length - 6 = u.length := by
      rw [List.length_append, length_keyword hkw, Nat.add_sub_cancel]
    rw [hlength, List.drop_left, List.take_left]
    exact ⟨hkw, hu⟩

/-- A match needs an announcing run with a run after it. -/
theorem clear_run (hn : IsRun isSpace n) (hl : Break isSpace l)
    (h : ¬(W.announces n = true ∧ ∃ c ∈ l, isSpace c = false)) (hprev : W.Fresh prev) :
    Clear W.bearerMatch prev n l := by
  refine clear_of_forall fun v x hx hne => ?_
  rw [Option.eq_none_iff_forall_not_mem]
  intro k hk
  obtain ⟨kw, w, value, rest, heq, hkw, hfresh, hw, hvalue, -, -⟩ := bearerMatch_eq_some.mp hk
  have hrun : ∀ c ∈ x, isSpace c = false := fun c hc =>
    hn.all c (hx ▸ List.mem_append_right v hc)
  obtain ⟨rfl, rfl⟩ := append_unique heq hrun (not_isSpace_keyword hkw) hl hw.break
  obtain ⟨c, hc⟩ := List.exists_mem_of_ne_nil value hvalue.ne_nil
  refine h ⟨announces_iff.mpr ⟨v, x, hx, hkw, (fresh_before v hprev).mp hfresh⟩, c, ?_,
    hvalue.all c hc⟩
  exact List.mem_append_right w (List.mem_append_left rest hc)

/-- Before the keyword at the end of a run no match starts. -/
theorem clear_before {u : List Char} (hn : IsRun isSpace (u ++ kw)) (hkw : isKeyword kw = true)
    (hl : Break isSpace l) : Clear W.bearerMatch prev u (kw ++ l) := by
  refine clear_of_forall fun v x hx hne => ?_
  rw [Option.eq_none_iff_forall_not_mem]
  intro k hk
  obtain ⟨kw', w, value, rest, heq, hkw', -, hw, -⟩ := bearerMatch_eq_some.mp hk
  have hrun : ∀ c ∈ x ++ kw, isSpace c = false := fun c hc => by
    refine hn.all c ?_
    rw [hx, List.append_assoc]
    exact List.mem_append_right v hc
  rw [← List.append_assoc] at heq
  obtain ⟨hsplit, -⟩ := append_unique heq hrun (not_isSpace_keyword hkw') hl hw.break
  have hlength := congrArg List.length hsplit
  rw [List.length_append, length_keyword hkw, length_keyword hkw'] at hlength
  exact hne (List.length_eq_zero_iff.mp (by omega))

/-! ## Redaction run by run -/

/-- The text redacted. -/
def redact (W : WordCharacters) (l : List Char) : List Char :=
  sub W.bearerMatch REDACTED.toList none 0 l

/-- Is there a match of the pattern in the text? -/
def found (W : WordCharacters) (l : List Char) : Bool := search W.bearerMatch none l

theorem sub_fresh (h : W.Fresh prev) : sub W.bearerMatch REDACTED.toList prev 0 l = W.redact l :=
  sub_congr (bearerMatch_fresh h)

theorem sub_break (h : Break isSpace l) :
    sub W.bearerMatch REDACTED.toList prev 0 l = W.redact l :=
  sub_congr ((bearerMatch_break h).trans (bearerMatch_break h).symm)

theorem redact_space {c : Char} (hc : isSpace c = true) : W.redact (c :: l) = c :: W.redact l := by
  rw [redact, sub, bearerMatch_break (break_cons.mpr hc)]
  exact congrArg (c :: ·) (sub_fresh (fresh_space hc))

theorem found_space {c : Char} (hc : isSpace c = true) : W.found (c :: l) = W.found l := by
  rw [found, search, bearerMatch_break (break_cons.mpr hc)]
  exact search_congr (bearerMatch_fresh (fresh_space hc))

/-- A run that announces nothing is kept. -/
theorem redact_run (hn : IsRun isSpace n) (hl : Break isSpace l)
    (h : ¬(W.announces n = true ∧ ∃ c ∈ l, isSpace c = false)) :
    W.redact (n ++ l) = n ++ W.redact l := by
  rw [redact, sub_clear (clear_run hn hl h fresh_none), sub_break hl]

theorem found_run (hn : IsRun isSpace n) (hl : Break isSpace l)
    (h : ¬(W.announces n = true ∧ ∃ c ∈ l, isSpace c = false)) :
    W.found (n ++ l) = W.found l := by
  rw [found, search_clear (clear_run hn hl h fresh_none)]
  exact search_congr ((bearerMatch_break hl).trans (bearerMatch_break hl).symm)

/-- A run that announces another is redacted with it, from the keyword on. -/
theorem redact_announced {u : List Char} (hn : IsRun isSpace (u ++ kw))
    (hkw : isKeyword kw = true) (hu : u.getLast?.any W.isWord = false) (hw : IsGap isSpace w)
    (hvalue : IsRun isSpace value) (hrest : Break isSpace rest) :
    W.redact (u ++ kw ++ (w ++ (value ++ rest))) = u ++ (REDACTED.toList ++ W.redact rest) := by
  have hmatch : W.bearerMatch (before none u) ((kw ++ (w ++ value)) ++ rest) =
      some (kw ++ (w ++ value)).length := by
    refine bearerMatch_eq_some.mpr ⟨kw, w, value, rest, ?_, hkw, ?_, hw, hvalue, hrest, rfl⟩
    · simp only [List.append_assoc]
    · exact (fresh_before u fresh_none).mpr hu
  have hne : kw ++ (w ++ value) ≠ [] := by
    intro hnil
    exact hvalue.ne_nil (List.append_eq_nil_iff.mp (List.append_eq_nil_iff.mp hnil).2).2
  have hsplit : kw ++ (w ++ (value ++ rest)) = (kw ++ (w ++ value)) ++ rest := by
    simp only [List.append_assoc]
  rw [List.append_assoc, redact, sub_clear (clear_before hn hkw hw.break), hsplit,
    sub_match hne hmatch, sub_break hrest]

theorem redact_break (hl : Break isSpace l) : Break isSpace (W.redact l) := by
  cases l with
  | nil => exact break_nil
  | cons c l =>
    have hc := break_cons.mp hl
    rw [redact_space hc]
    exact break_cons.mpr hc

theorem redact_spaces (h : ∀ c ∈ l, isSpace c = true) : W.redact l = l := by
  induction l with
  | nil => rfl
  | cons c l ih =>
    rw [redact_space (h c List.mem_cons_self),
      ih fun d hd => h d (List.mem_cons_of_mem c hd)]

/-- The marker ends no announcement. -/
theorem not_announces_marker (u : List Char) : W.announces (u ++ REDACTED.toList) = false := by
  by_contra h
  obtain ⟨v, kw, heq, hkw, -⟩ := announces_iff.mp (Bool.eq_true_of_not_eq_false h)
  have hlast := congrArg List.getLast? heq
  have hne : kw ≠ [] := fun hnil => by
    rw [hnil] at hkw
    cases hkw
  rw [List.getLast?_append_of_ne_nil u (by decide), List.getLast?_append_of_ne_nil v hne] at hlast
  have hmem : ']' ∈ kw := List.mem_of_getLast? (hlast.symm.trans (by decide))
  have hletter : ']'.toLower ∈ "bearer".toList := by
    rw [← of_decide_eq_true hkw]
    exact List.mem_map_of_mem hmem
  exact absurd hletter (by decide)

/-- **Nothing is left to find.** -/
theorem found_redact (W : WordCharacters) (l : List Char) : W.found (W.redact l) = false := by
  -- by induction on the length: a match takes the run after it along
  induction hlength : l.length using Nat.strong_induction_on generalizing l with
  | _ k ih =>
    subst hlength
    rcases cases_run isSpace l with rfl | ⟨c, l', hc, rfl⟩ | ⟨n, l', hn, hl', rfl⟩
    · rfl
    · rw [redact_space hc, found_space hc]
      exact ih l'.length (by simp) l' rfl
    · have hpos := List.length_pos_iff.mpr hn.ne_nil
      by_cases h : W.announces n = true ∧ ∃ c ∈ l', isSpace c = false
      · obtain ⟨hannounces, hafter⟩ := h
        obtain ⟨u, kw, rfl, hkw, hu⟩ := announces_iff.mp hannounces
        obtain ⟨w, value, rest, hw, hvalue, hrest, rfl⟩ := exists_run hl' hafter
        have hmarker : IsRun isSpace (u ++ REDACTED.toList) := by
          refine ⟨by simp [REDACTED], fun c hc => ?_⟩
          rcases List.mem_append.mp hc with hc | hc
          · exact hn.all c (List.mem_append_left kw hc)
          · have hall : ∀ c ∈ REDACTED.toList, isSpace c = false := none_of_all (by decide)
            exact hall c hc
        rw [redact_announced hn hkw hu hw hvalue hrest, ← List.append_assoc,
          found_run hmarker (redact_break hrest) fun ha => by
            rw [not_announces_marker] at ha
            exact absurd ha.1 (by decide)]
        refine ih rest.length ?_ rest rfl
        simp only [List.length_append] at hpos ⊢
        omega
      · rw [redact_run hn hl' h]
        have hshorter : l'.length < (n ++ l').length := by
          rw [List.length_append]
          omega
        by_cases hannounces : W.announces n = true
        · -- with nothing but separators after the run
          have hspaces : ∀ c ∈ l', isSpace c = true := fun c hc =>
            Bool.eq_true_of_not_eq_false fun hfalse => h ⟨hannounces, c, hc, hfalse⟩
          rw [redact_spaces hspaces, found_run hn hl' h]
          exact redact_spaces (W := W) hspaces ▸ ih l'.length hshorter l' rfl
        · rw [found_run hn (redact_break hl') fun ha => hannounces ha.1]
          exact ih l'.length hshorter l' rfl

/-- **Redacting again changes nothing.** -/
theorem redact_redact (W : WordCharacters) (l : List Char) :
    W.redact (W.redact l) = W.redact l :=
  sub_of_not_search (found_redact W l)

end WordCharacters

end AegisPlatform
