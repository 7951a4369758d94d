import AegisPlatform.Domain.Values
import Mathlib.Data.Nat.Digits.Lemmas
import Mathlib.Data.List.Sort
import Mathlib.Data.List.Lex
import Mathlib.Data.Char

/-!
# JSON strings

The strings of `json.dumps` and `json.loads`, character by character.  Every character that is
written is ASCII.

* `escapeChar`, `quote` — writing.
* `stringChar`, `stringBody` — reading.
* `stringBody_escape` — what is written for a string is read back.
-/

namespace AegisPlatform

namespace Json

/-! ## Characters -/

/-- `'\\u{0:04x}'.format(n)`. -/
def unicodeEscape (n : ℕ) : List Char := '\\' :: 'u' :: hexDigits n 4

/-- One character of a JSON string, `ensure_ascii`. -/
def escapeChar (c : Char) : List Char :=
  if c = '"' then ['\\', '"']
  else if c = '\\' then ['\\', '\\']
  else if c = '\n' then ['\\', 'n']
  else if c = '\r' then ['\\', 'r']
  else if c = '\t' then ['\\', 't']
  else if c.toNat = 12 then ['\\', 'f']
  else if c.toNat = 8 then ['\\', 'b']
  else if 32 ≤ c.toNat ∧ c.toNat ≤ 126 then [c]
  else if c.toNat < 65536 then unicodeEscape c.toNat
  else unicodeEscape (55296 + (c.toNat - 65536) / 1024) ++
    unicodeEscape (56320 + (c.toNat - 65536) % 1024)

/-- A JSON string. -/
def quote (s : String) : List Char := '"' :: (s.toList.flatMap escapeChar ++ ['"'])

/-- The value of a hexadecimal digit. -/
def hexValue (c : Char) : Option ℕ :=
  if '0' ≤ c ∧ c ≤ '9' then some (c.toNat - 48)
  else if 'a' ≤ c ∧ c ≤ 'f' then some (c.toNat - 87)
  else if 'A' ≤ c ∧ c ≤ 'F' then some (c.toNat - 55)
  else none

/-- Four hexadecimal digits. -/
def hex4 : List Char → Option (ℕ × List Char)
  | a :: b :: c :: d :: rest => do
    let a ← hexValue a
    let b ← hexValue b
    let c ← hexValue c
    let d ← hexValue d
    some (((a * 16 + b) * 16 + c) * 16 + d, rest)
  | _ => none

/-- What follows a `\u`: a character, or the two halves of a surrogate pair.  Half a pair is
no character. -/
def unicode (t : List Char) : Option (Char × List Char) :=
  match hex4 t with
  | none => none
  | some (n, rest) =>
    if 55296 ≤ n ∧ n < 56320 then
      match rest with
      | '\\' :: 'u' :: rest =>
        match hex4 rest with
        | some (m, rest) =>
          if 56320 ≤ m ∧ m < 57344 then
            some (Char.ofNat (65536 + (n - 55296) * 1024 + (m - 56320)), rest)
          else none
        | none => none
      | _ => none
    else if 56320 ≤ n ∧ n < 57344 then none
    else some (Char.ofNat n, rest)

/-- What follows a backslash. -/
def escaped : List Char → Option (Char × List Char)
  | '"' :: rest => some ('"', rest)
  | '\\' :: rest => some ('\\', rest)
  | '/' :: rest => some ('/', rest)
  | 'n' :: rest => some ('\n', rest)
  | 'r' :: rest => some ('\r', rest)
  | 't' :: rest => some ('\t', rest)
  | 'f' :: rest => some (Char.ofNat 12, rest)
  | 'b' :: rest => some (Char.ofNat 8, rest)
  | 'u' :: rest => unicode rest
  | _ => none

/-- The first character of the inside of a string, and what follows it. -/
def stringChar : List Char → Option (Char × List Char)
  | [] => none
  | c :: rest =>
    if c = '\\' then escaped rest
    else if c.toNat < 32 then none
    else some (c, rest)

/-- The inside of a string, up to its closing quote. -/
def stringBody : ℕ → List Char → Option (List Char × List Char)
  | 0, _ => none
  | _ + 1, '"' :: rest => some ([], rest)
  | fuel + 1, t => do
    let (c, rest) ← stringChar t
    let (cs, rest) ← stringBody fuel rest
    some (c :: cs, rest)

theorem hexValue_hexDigit {n : ℕ} (hn : n < 16) : hexValue (hexDigit n) = some n := by
  have hall : ∀ n < 16, hexValue (hexDigit n) = some n := by decide
  exact hall n hn

theorem hex4_hexDigits {n : ℕ} (hn : n < 65536) (rest : List Char) :
    hex4 (hexDigits n 4 ++ rest) = some (n, rest) := by
  have hdigit : ∀ m, hexValue (hexDigit (m % 16)) = some (m % 16) := fun m =>
    hexValue_hexDigit (Nat.mod_lt _ (by decide))
  simp only [hexDigits, List.nil_append, List.cons_append, hex4, hdigit,
    Option.bind_eq_bind, Option.bind_some, Option.some.injEq, Prod.mk.injEq, and_true]
  omega

/-- A character is no half of a surrogate pair. -/
theorem not_surrogate (c : Char) : ¬ (55296 ≤ c.toNat ∧ c.toNat < 57344) := by
  have hvalid := c.valid
  rintro ⟨hlow, hhigh⟩
  rcases hvalid with h | ⟨h, -⟩
  · have : c.toNat < 55296 := h
    omega
  · have : 57343 < c.toNat := h
    omega

theorem toNat_lt (c : Char) : c.toNat < 1114112 := by
  rcases c.valid with h | ⟨-, h⟩
  · have : c.toNat < 55296 := h
    omega
  · exact h

theorem unicode_hexDigits (c : Char) (hc : c.toNat < 65536) (rest : List Char) :
    unicode (hexDigits c.toNat 4 ++ rest) = some (c, rest) := by
  have hnot := not_surrogate c
  rw [unicode, hex4_hexDigits hc]
  simp only
  rw [if_neg (by omega), if_neg (by omega), Char.ofNat_toNat]

theorem unicode_pair {n m : ℕ} (hn : 55296 ≤ n ∧ n < 56320) (hm : 56320 ≤ m ∧ m < 57344)
    (rest : List Char) : unicode (hexDigits n 4 ++ (unicodeEscape m ++ rest)) =
      some (Char.ofNat (65536 + (n - 55296) * 1024 + (m - 56320)), rest) := by
  rw [unicode, hex4_hexDigits (by omega)]
  show (if 55296 ≤ n ∧ n < 56320 then _ else _) = _
  rw [if_pos hn]
  show (match hex4 (hexDigits m 4 ++ rest) with | some (m, rest) => _ | none => none) = _
  rw [hex4_hexDigits (by omega)]
  exact if_pos hm

theorem stringChar_unicodeEscape (n : ℕ) (rest : List Char) :
    stringChar (unicodeEscape n ++ rest) = unicode (hexDigits n 4 ++ rest) := rfl

/-- What is written for a character is read back. -/
theorem stringChar_escapeChar (c : Char) (rest : List Char) :
    stringChar (escapeChar c ++ rest) = some (c, rest) := by
  unfold escapeChar
  split
  · subst_vars; rfl
  split
  · subst_vars; rfl
  split
  · subst_vars; rfl
  split
  · subst_vars; rfl
  split
  · subst_vars; rfl
  split
  · rename_i h
    rw [← Char.ofNat_toNat c, h]
    rfl
  split
  · rename_i h
    rw [← Char.ofNat_toNat c, h]
    rfl
  split
  · rename_i hslash _ _ _ _ _ hplain
    rw [List.singleton_append, stringChar, if_neg hslash, if_neg (by omega)]
  split
  · rename_i hsmall
    rw [stringChar_unicodeEscape]
    exact unicode_hexDigits c hsmall rest
  · rename_i hlarge
    have hlt := toNat_lt c
    have hnat : ∀ n m, n = 55296 + (c.toNat - 65536) / 1024 →
        m = 56320 + (c.toNat - 65536) % 1024 →
        65536 + (n - 55296) * 1024 + (m - 56320) = c.toNat := by omega
    generalize hn : 55296 + (c.toNat - 65536) / 1024 = n
    generalize hm : 56320 + (c.toNat - 65536) % 1024 = m
    rw [List.append_assoc, stringChar_unicodeEscape, unicode_pair (by omega) (by omega),
      hnat n m hn.symm hm.symm, Char.ofNat_toNat]

theorem escapeChar_ne_quote (c : Char) : ∃ d t, escapeChar c = d :: t ∧ d ≠ '"' := by
  unfold escapeChar
  split
  · exact ⟨_, _, rfl, by decide⟩
  split
  · exact ⟨_, _, rfl, by decide⟩
  split
  · exact ⟨_, _, rfl, by decide⟩
  split
  · exact ⟨_, _, rfl, by decide⟩
  split
  · exact ⟨_, _, rfl, by decide⟩
  split
  · exact ⟨_, _, rfl, by decide⟩
  split
  · exact ⟨_, _, rfl, by decide⟩
  split
  · rename_i hquote _ _ _ _ _ _ _
    exact ⟨_, _, rfl, hquote⟩
  split
  · exact ⟨_, _, rfl, by decide⟩
  · exact ⟨_, _, rfl, by decide⟩

/-- What is written for a string is read back. -/
theorem stringBody_escape (cs : List Char) {fuel : ℕ} (hfuel : cs.length < fuel)
    (rest : List Char) :
    stringBody fuel (cs.flatMap escapeChar ++ '"' :: rest) = some (cs, rest) := by
  induction cs generalizing fuel with
  | nil =>
    obtain ⟨fuel, rfl⟩ := Nat.exists_eq_succ_of_ne_zero (Nat.ne_of_gt hfuel)
    rfl
  | cons c cs ih =>
    obtain ⟨fuel, rfl⟩ := Nat.exists_eq_succ_of_ne_zero (Nat.ne_of_gt (Nat.zero_lt_of_lt hfuel))
    rw [List.flatMap_cons, List.append_assoc]
    have hread := stringChar_escapeChar c (cs.flatMap escapeChar ++ '"' :: rest)
    obtain ⟨d, t, ht, hd⟩ := escapeChar_ne_quote c
    rw [ht, List.cons_append] at hread ⊢
    rw [stringBody]
    · rw [hread]
      show (stringBody fuel _ >>= fun x => some (c :: x.1, x.2)) = _
      rw [ih (Nat.lt_of_succ_lt_succ hfuel)]
      rfl
    · intro rest' h
      exact hd (List.cons.inj h).1

end Json

end AegisPlatform
