import AegisPlatform.Domain.Equality
import AegisPlatform.Queueing.Json
import AegisPlatform.Lib.Numeral
import Mathlib.Data.String.Basic

/-!
# JSON text

`json.dumps(value, separators=(",", ":"), sort_keys=True)` and the grammar `json.loads`
reads.  How a float is written and read is taken as it comes (`FloatText`): what is written is a
number with a fraction or an exponent, and it is read back.

* `JsonValue.sortKeys` — a value with its keys in order, which is an equal value.
* `print`, `dumps` — writing.
* `value`, `items`, `fields`, `loads` — reading.
* `loads_dumps` — what is written is read back, with its keys in order.
-/

namespace AegisPlatform

namespace JsonValue

mutual

/-- The value with the keys of its objects in order. -/
def sortKeys : JsonValue → JsonValue
  | list xs => list (sortKeysList xs)
  | obj fields => obj ((sortKeysFields fields).insertionSort fun p q => p.1 ≤ q.1)
  | v => v

/-- The values with the keys of their objects in order. -/
def sortKeysList : List JsonValue → List JsonValue
  | [] => []
  | x :: xs => sortKeys x :: sortKeysList xs

/-- The fields, in their own order, with the keys of their values in order. -/
def sortKeysFields : List (String × JsonValue) → List (String × JsonValue)
  | [] => []
  | (key, v) :: rest => (key, sortKeys v) :: sortKeysFields rest

end

theorem mem_sortKeysList {xs : List JsonValue} {y : JsonValue} :
    y ∈ sortKeysList xs ↔ ∃ x ∈ xs, sortKeys x = y := by
  induction xs with
  | nil => simp [sortKeysList]
  | cons x xs ih => simp [sortKeysList, ih, eq_comm]

theorem mem_sortKeysFields {fields : Dict} {p : String × JsonValue} :
    p ∈ sortKeysFields fields ↔ ∃ field ∈ fields, (field.1, sortKeys field.2) = p := by
  induction fields with
  | nil => simp [sortKeysFields]
  | cons field fields ih => simp [sortKeysFields, ih, eq_comm]

theorem keys_sortKeysFields (fields : Dict) :
    (sortKeysFields fields).map (·.1) = fields.map (·.1) := by
  induction fields with
  | nil => rfl
  | cons field fields ih => rw [sortKeysFields, List.map_cons, List.map_cons, ih]

/-- The keys in order are the keys. -/
theorem keys_perm (fields : Dict) :
    (((sortKeysFields fields).insertionSort fun p q => p.1 ≤ q.1).map (·.1)).Perm
      (fields.map (·.1)) := by
  rw [← keys_sortKeysFields fields]
  exact (List.perm_insertionSort _ _).map _

/-- Objects that are the same in order have the same fields in order. -/
theorem mem_of_sortKeys_eq {fields others : Dict}
    (h : sortKeys (obj fields) = sortKeys (obj others)) {key : String} {v : JsonValue}
    (hmem : (key, v) ∈ fields) : ∃ w, (key, w) ∈ others ∧ sortKeys w = sortKeys v := by
  have hsorted : (key, sortKeys v) ∈
      (sortKeysFields others).insertionSort fun p q => p.1 ≤ q.1 := by
    rw [sortKeys, sortKeys, obj.injEq] at h
    rw [← h, List.mem_insertionSort]
    exact mem_sortKeysFields.2 ⟨_, hmem, rfl⟩
  rw [List.mem_insertionSort] at hsorted
  obtain ⟨⟨key', w⟩, hw, heq⟩ := mem_sortKeysFields.1 hsorted
  obtain ⟨rfl, hsame⟩ := Prod.mk.injEq .. ▸ heq
  exact ⟨w, hw, hsame⟩

/-- A field that both have once is the same in order. -/
theorem field_sortKeys_eq {fields others : Dict}
    (h : sortKeys (obj fields) = sortKeys (obj others)) (key : String) {v w : JsonValue}
    (hmem : (key, v) ∈ fields) (honly : ∀ x, (key, x) ∈ others → x = w) :
    sortKeys w = sortKeys v := by
  obtain ⟨x, hx, hsame⟩ := mem_of_sortKeys_eq h hmem
  exact honly x hx ▸ hsame

theorem mem_of_sortKeys_list_eq {xs ys : List JsonValue}
    (h : sortKeys (list xs) = sortKeys (list ys)) {x : JsonValue} (hmem : x ∈ xs) :
    ∃ y ∈ ys, sortKeys y = sortKeys x := by
  rw [sortKeys, sortKeys, list.injEq] at h
  exact mem_sortKeysList.1 (h ▸ mem_sortKeysList.2 ⟨x, hmem, rfl⟩)

theorem isFinite_sortKeys {v : JsonValue} (h : v.isFinite = true) :
    v.sortKeys.isFinite = true := by
  induction v using induct with
  | list xs ih =>
    rw [isFinite, isFiniteList_iff] at h
    rw [sortKeys, isFinite, isFiniteList_iff]
    intro y hy
    obtain ⟨x, hx, rfl⟩ := mem_sortKeysList.1 hy
    exact ih x hx (h x hx)
  | obj fields ih =>
    rw [isFinite, isFiniteFields_iff] at h
    rw [sortKeys, isFinite, isFiniteFields_iff]
    intro p hp
    rw [List.mem_insertionSort] at hp
    obtain ⟨field, hfield, rfl⟩ := mem_sortKeysFields.1 hp
    exact ih field hfield (h field hfield)
  | _ => exact h

theorem isDict_sortKeys {v : JsonValue} (h : v.isDict = true) : v.sortKeys.isDict = true := by
  induction v using induct with
  | list xs ih =>
    rw [isDict, isDictList_iff] at h
    rw [sortKeys, isDict, isDictList_iff]
    intro y hy
    obtain ⟨x, hx, rfl⟩ := mem_sortKeysList.1 hy
    exact ih x hx (h x hx)
  | obj fields ih =>
    rw [isDict_obj_iff] at h
    rw [sortKeys, isDict_obj_iff]
    refine ⟨(keys_perm fields).nodup_iff.2 h.1, ?_⟩
    intro p hp
    rw [List.mem_insertionSort] at hp
    obtain ⟨field, hfield, rfl⟩ := mem_sortKeysFields.1 hp
    exact ih field hfield (h.2 field hfield)
  | _ => exact h

theorem pyEqList_sortKeysList {xs : List JsonValue} (h : ∀ x ∈ xs, pyEq (sortKeys x) x = true) :
    pyEqList (sortKeysList xs) xs = true := by
  induction xs with
  | nil => rfl
  | cons x xs ih =>
    rw [sortKeysList, pyEqList, h x (List.mem_cons_self ..),
      ih fun y hy => h y (List.mem_cons_of_mem _ hy)]
    rfl

/-- **The order of the keys is of no consequence**: the values are equal. -/
theorem pyEq_sortKeys {v : JsonValue} (hdict : v.isDict = true) (hfinite : v.isFinite = true) :
    pyEq v.sortKeys v = true := by
  induction v using induct with
  | list xs ih =>
    rw [isDict, isDictList_iff] at hdict
    rw [isFinite, isFiniteList_iff] at hfinite
    rw [sortKeys, pyEq]
    exact pyEqList_sortKeysList fun x hx => ih x hx (hdict x hx) (hfinite x hx)
  | obj fields ih =>
    rw [isDict_obj_iff] at hdict
    rw [isFinite, isFiniteFields_iff] at hfinite
    rw [sortKeys]
    refine pyEq_obj_iff.2 ⟨?_, fun p hp => ?_⟩
    · simpa using (keys_perm fields).length_eq
    · rw [List.mem_insertionSort] at hp
      obtain ⟨field, hfield, rfl⟩ := mem_sortKeysFields.1 hp
      exact ⟨field.2, lookup_of_mem hdict.1 hfield,
        ih field hfield (hdict.2 field hfield) (hfinite field hfield)⟩
  | _ => exact pyEq_refl hdict hfinite

end JsonValue

namespace Json

/-! ## Numbers -/

/-- A character of a number. -/
def isNumberChar (c : Char) : Bool :=
  c.isDigit || c = '-' || c = '+' || c = '.' || c = 'e' || c = 'E'

/-- Does the text of a number have a fraction or an exponent? -/
def hasPoint (token : List Char) : Bool := token.any fun c => c = '.' || c = 'e' || c = 'E'

/-- `float.__repr__`, and the reading of a number with a fraction or an exponent.  A finite
float is written as such a number, and is the one that is read. -/
structure FloatText where
  repr : BitVec 64 → List Char
  read : List Char → Option (BitVec 64)
  chars : ∀ bits, (floatValue bits).isSome = true → ∀ c ∈ repr bits, isNumberChar c = true
  head : ∀ bits, (floatValue bits).isSome = true →
    ∃ c rest, repr bits = c :: rest ∧ (c = '-' ∨ c.isDigit = true)
  point : ∀ bits, (floatValue bits).isSome = true → hasPoint (repr bits) = true
  read_repr : ∀ bits, (floatValue bits).isSome = true → read (repr bits) = some bits

/-- Is there a zero before other digits? -/
def leadingZero : List Char → Bool
  | '-' :: '0' :: _ :: _ => true
  | '0' :: _ :: _ => true
  | _ => false

/-- A name, as `null`. -/
def literal (name : String) (v : JsonValue) (t : List Char) : Option (JsonValue × List Char) :=
  if name.toList.isPrefixOf t then some (v, t.drop name.length) else none

/-- The start of a text is not a part of a number before it. -/
def Stops (t : List Char) : Prop := ∀ c ∈ t.head?, isNumberChar c = false

theorem takeWhile_number {token rest : List Char} (htoken : ∀ c ∈ token, isNumberChar c = true)
    (hrest : Stops rest) : (token ++ rest).takeWhile isNumberChar = token := by
  rw [List.takeWhile_append_of_pos htoken]
  cases rest with
  | nil => simp
  | cons c rest => simp [hrest c rfl]

theorem dropWhile_number {token rest : List Char} (htoken : ∀ c ∈ token, isNumberChar c = true)
    (hrest : Stops rest) : (token ++ rest).dropWhile isNumberChar = rest := by
  rw [List.dropWhile_append_of_pos htoken]
  cases rest with
  | nil => rfl
  | cons c rest => simp [hrest c rfl]

section

variable (F : FloatText)

/-- A number. -/
def number (t : List Char) : Option (JsonValue × List Char) :=
  let token := t.takeWhile isNumberChar
  let rest := t.dropWhile isNumberChar
  if token = ['-'] then literal "Infinity" (.float 0xFFF0000000000000#64) rest
  else if hasPoint token then (F.read token).map fun bits => (.float bits, rest)
  else if leadingZero token then none
  else (Numeral.readInteger token).map fun n => (.int n, rest)

/-! ## Writing -/

mutual

/-- The text of a value, without blanks. -/
def print : JsonValue → List Char
  | .null => "null".toList
  | .bool true => "true".toList
  | .bool false => "false".toList
  | .int n => Numeral.integer n
  | .float bits => F.repr bits
  | .str s => quote s
  | .list xs => '[' :: (printItems xs ++ [']'])
  | .obj fields => '{' :: (printFields fields ++ ['}'])

/-- The items of a list, with commas between them. -/
def printItems : List JsonValue → List Char
  | [] => []
  | x :: xs => print x ++ (match xs with | [] => [] | _ :: _ => ',' :: printItems xs)

/-- The fields of an object, with commas between them. -/
def printFields : List (String × JsonValue) → List Char
  | [] => []
  | (key, v) :: rest => quote key ++ ':' :: (print v ++
    (match rest with | [] => [] | _ :: _ => ',' :: printFields rest))

end

/-! ## Reading -/

/-- The blanks of JSON. -/
def isBlankChar (c : Char) : Bool := c = ' ' || c = '\t' || c = '\n' || c = '\r'

/-- What follows the blanks. -/
def skip (t : List Char) : List Char := t.dropWhile isBlankChar

/-- A value that starts with neither a quote nor a bracket. -/
def scalar (c : Char) (t : List Char) : Option (JsonValue × List Char) :=
  if c = 'n' then literal "null" .null t
  else if c = 't' then literal "true" (.bool true) t
  else if c = 'f' then literal "false" (.bool false) t
  else if c = 'N' then literal "NaN" (.float 0x7FF8000000000000#64) t
  else if c = 'I' then literal "Infinity" (.float 0x7FF0000000000000#64) t
  else number F t

mutual

/-- A value. -/
def value : ℕ → List Char → Option (JsonValue × List Char)
  | 0, _ => none
  | fuel + 1, t =>
    match skip t with
    | [] => none
    | c :: rest =>
      if c = '"' then
        (stringBody (rest.length + 1) rest).map fun (cs, rest) => (.str (String.ofList cs), rest)
      else if c = '[' then
        match skip rest with
        | ']' :: rest => some (.list [], rest)
        | rest => (items fuel rest).map fun (xs, rest) => (.list xs, rest)
      else if c = '{' then
        match skip rest with
        | '}' :: rest => some (.obj [], rest)
        | rest => (fields fuel [] rest).map fun (d, rest) => (.obj d, rest)
      else scalar F c (c :: rest)

/-- The items of a list, up to its bracket. -/
def items : ℕ → List Char → Option (List JsonValue × List Char)
  | 0, _ => none
  | fuel + 1, t =>
    match value fuel t with
    | none => none
    | some (x, rest) =>
      match skip rest with
      | ']' :: rest => some ([x], rest)
      | ',' :: rest => (items fuel rest).map fun (xs, rest) => (x :: xs, rest)
      | _ => none

/-- The fields of an object, up to its brace; a key that comes again is overwritten. -/
def fields : ℕ → Dict → List Char → Option (Dict × List Char)
  | 0, _, _ => none
  | fuel + 1, d, t =>
    match skip t with
    | '"' :: rest =>
      match stringBody (rest.length + 1) rest with
      | none => none
      | some (key, rest) =>
        match skip rest with
        | ':' :: rest =>
          match value fuel rest with
          | none => none
          | some (v, rest) =>
            let d := d.set (String.ofList key) v
            match skip rest with
            | '}' :: rest => some (d, rest)
            | ',' :: rest => fields fuel d rest
            | _ => none
        | _ => none
    | _ => none

end

/-- `json.loads`. -/
def loads (t : List Char) : Option JsonValue :=
  match value F (2 * t.length + 1) t with
  | some (v, rest) => if skip rest = [] then some v else none
  | none => none

/-! ## What is written is read back -/

theorem skip_cons {c : Char} (hc : isBlankChar c = false) (rest : List Char) :
    skip (c :: rest) = c :: rest := by
  simp [skip, hc]

theorem literal_append (name : String) (v : JsonValue) (rest : List Char) :
    literal name v (name.toList ++ rest) = some (v, rest) := by
  have hprefix : name.toList.isPrefixOf (name.toList ++ rest) = true := by
    rw [List.isPrefixOf_iff_prefix]
    exact List.prefix_append ..
  rw [literal, if_pos hprefix, ← String.length_toList, List.drop_left]

theorem hasPoint_of_digits {token : List Char}
    (h : ∀ c ∈ token, c = '-' ∨ c.isDigit = true) : hasPoint token = false := by
  rw [hasPoint, List.any_eq_false]
  intro c hc
  rcases h c hc with rfl | hdigit
  · decide
  · have hne : ∀ d : Char, d.isDigit = false → c ≠ d := by
      rintro d hd rfl
      rw [hd] at hdigit
      cases hdigit
    simp [hne '.' (by decide), hne 'e' (by decide), hne 'E' (by decide)]

theorem digits_integer {n : ℤ} {c : Char} (h : c ∈ Numeral.integer n) :
    c = '-' ∨ c.isDigit = true := by
  cases n with
  | ofNat n => exact .inr (Numeral.isDigit_of_mem_natural h)
  | negSucc n =>
    rw [Numeral.integer, List.mem_cons] at h
    exact h.imp_right Numeral.isDigit_of_mem_natural

theorem leadingZero_natural (n : ℕ) : leadingZero (Numeral.natural n) = false := by
  unfold leadingZero
  split
  · rename_i h
    exact absurd h (Numeral.natural_ne_minus n _)
  · rename_i h
    cases Numeral.natural_zero_cons h
  · rfl

theorem leadingZero_integer (n : ℤ) : leadingZero (Numeral.integer n) = false := by
  cases n with
  | ofNat n => exact leadingZero_natural n
  | negSucc n =>
    obtain ⟨d, ds, hds⟩ := List.exists_cons_of_ne_nil (Numeral.natural_ne_nil (n + 1))
    have hd : d ≠ '0' := Numeral.natural_head_ne_zero (Nat.succ_pos n) hds
    rw [Numeral.integer, hds]
    unfold leadingZero
    split
    · rename_i h
      cases h
      exact absurd rfl hd
    · rename_i h
      cases h
    · rfl

theorem number_integer (n : ℤ) {rest : List Char} (hrest : Stops rest) :
    number F (Numeral.integer n ++ rest) = some (.int n, rest) := by
  have hchars : ∀ c ∈ Numeral.integer n, isNumberChar c = true := by
    intro c hc
    rcases digits_integer hc with rfl | hdigit
    · rfl
    · simp [isNumberChar, hdigit]
  have hminus : Numeral.integer n ≠ ['-'] := by
    intro h
    have hread := Numeral.readInteger_integer n
    rw [h] at hread
    cases hread
  unfold number
  simp only [takeWhile_number hchars hrest, dropWhile_number hchars hrest]
  rw [if_neg hminus, hasPoint_of_digits fun c hc => digits_integer hc, leadingZero_integer,
    Numeral.readInteger_integer]
  rfl

theorem number_float {bits : BitVec 64} (hbits : (floatValue bits).isSome = true)
    {rest : List Char} (hrest : Stops rest) :
    number F (F.repr bits ++ rest) = some (.float bits, rest) := by
  have hminus : F.repr bits ≠ ['-'] := by
    intro h
    have hpoint := F.point bits hbits
    rw [h] at hpoint
    cases hpoint
  unfold number
  simp only [takeWhile_number (F.chars bits hbits) hrest, dropWhile_number (F.chars bits hbits) hrest]
  rw [if_neg hminus, F.point bits hbits, F.read_repr bits hbits]
  rfl

/-- What starts with a digit or a sign is a number. -/
theorem value_number {c : Char} (hc : c = '-' ∨ c.isDigit = true) (fuel : ℕ) (rest : List Char) :
    value F (fuel + 1) (c :: rest) = number F (c :: rest) := by
  have hne : ∀ d : Char, d ≠ '-' → d.isDigit = false → c ≠ d := by
    rintro d hminus hdigit rfl
    rcases hc with h | h
    · exact hminus h
    · rw [hdigit] at h
      cases h
  have hblank : isBlankChar c = false := by
    simp [isBlankChar, hne ' ' (by decide) (by decide), hne '\t' (by decide) (by decide),
      hne '\n' (by decide) (by decide), hne '\r' (by decide) (by decide)]
  rw [value, skip_cons hblank]
  simp only [scalar, if_neg (hne '"' (by decide) (by decide)),
    if_neg (hne '[' (by decide) (by decide)), if_neg (hne '{' (by decide) (by decide)),
    if_neg (hne 'n' (by decide) (by decide)), if_neg (hne 't' (by decide) (by decide)),
    if_neg (hne 'f' (by decide) (by decide)), if_neg (hne 'N' (by decide) (by decide)),
    if_neg (hne 'I' (by decide) (by decide))]

theorem value_null (fuel : ℕ) (rest : List Char) :
    value F (fuel + 1) ("null".toList ++ rest) = some (.null, rest) := by
  rw [← literal_append "null" .null rest]
  rfl

theorem value_true (fuel : ℕ) (rest : List Char) :
    value F (fuel + 1) ("true".toList ++ rest) = some (.bool true, rest) := by
  rw [← literal_append "true" (.bool true) rest]
  rfl

theorem value_false (fuel : ℕ) (rest : List Char) :
    value F (fuel + 1) ("false".toList ++ rest) = some (.bool false, rest) := by
  rw [← literal_append "false" (.bool false) rest]
  rfl

theorem length_le_escape (cs : List Char) : cs.length ≤ (cs.flatMap escapeChar).length := by
  induction cs with
  | nil => exact le_refl _
  | cons c cs ih =>
    obtain ⟨d, t, ht, -⟩ := escapeChar_ne_quote c
    rw [List.flatMap_cons, List.length_append, List.length_cons, ht, List.length_cons]
    omega

/-- A string is read back by as much fuel as its text is long. -/
theorem stringBody_quote (s : String) (rest : List Char) :
    stringBody ((s.toList.flatMap escapeChar ++ '"' :: rest).length + 1)
      (s.toList.flatMap escapeChar ++ '"' :: rest) = some (s.toList, rest) := by
  have hlength := length_le_escape s.toList
  refine stringBody_escape s.toList ?_ rest
  rw [List.length_append]
  omega

theorem quote_append (s : String) (rest : List Char) :
    quote s ++ rest = '"' :: (s.toList.flatMap escapeChar ++ '"' :: rest) := by
  simp [quote]

theorem value_str (s : String) (fuel : ℕ) (rest : List Char) :
    value F (fuel + 1) (quote s ++ rest) = some (.str s, rest) := by
  rw [quote_append, value, skip_cons rfl]
  simp only [if_true, stringBody_quote, Option.map_some, String.ofList_toList]

/-- A list that is not empty is read item by item. -/
theorem value_items (fuel : ℕ) {c : Char} {t : List Char} (hblank : isBlankChar c = false)
    (hc : c ≠ ']') : value F (fuel + 1) ('[' :: c :: t) =
      (items F fuel (c :: t)).map fun (xs, rest) => (.list xs, rest) := by
  rw [value, skip_cons rfl]
  simp only [skip_cons hblank]
  rw [if_neg (by decide), if_pos trivial]
  split
  · rename_i h
    exact absurd (List.cons.inj h).1 hc
  · rfl

/-- An object that is not empty is read field by field. -/
theorem value_fields (fuel : ℕ) (t : List Char) : value F (fuel + 1) ('{' :: '"' :: t) =
    (fields F fuel [] ('"' :: t)).map fun (d, rest) => (.obj d, rest) := by
  rw [value, skip_cons rfl]
  simp only [skip_cons (c := '"') rfl]
  rw [if_neg (by decide), if_neg (by decide), if_pos trivial]
  rfl

mutual

/-- Fuel that is enough to read a value. -/
def cost : JsonValue → ℕ
  | .list xs => costItems xs + 1
  | .obj fields => costFields fields + 1
  | _ => 1

/-- Fuel that is enough to read the items of a list. -/
def costItems : List JsonValue → ℕ
  | [] => 0
  | x :: xs => cost x + costItems xs + 1

/-- Fuel that is enough to read the fields of an object. -/
def costFields : List (String × JsonValue) → ℕ
  | [] => 0
  | (_, v) :: rest => cost v + costFields rest + 1

end

theorem cost_pos (v : JsonValue) : 0 < cost v := by
  cases v <;> simp [cost]

/-- What is written for a value starts with no blank and no closing bracket. -/
theorem print_head {v : JsonValue} (hv : v.isFinite = true) :
    ∃ c t, print F v = c :: t ∧ isBlankChar c = false ∧ c ≠ ']' := by
  have hnumber : ∀ c : Char, c = '-' ∨ c.isDigit = true → isBlankChar c = false ∧ c ≠ ']' := by
    rintro c (rfl | hdigit)
    · decide
    · have hne : ∀ d : Char, d.isDigit = false → c ≠ d := by
        rintro d hd rfl
        rw [hd] at hdigit
        cases hdigit
      exact ⟨by simp [isBlankChar, hne ' ' (by decide), hne '\t' (by decide),
        hne '\n' (by decide), hne '\r' (by decide)], hne ']' (by decide)⟩
  cases v with
  | null => exact ⟨_, _, rfl, by decide, by decide⟩
  | bool b => cases b <;> exact ⟨_, _, rfl, by decide, by decide⟩
  | int n =>
    obtain ⟨c, t, ht⟩ : ∃ c t, Numeral.integer n = c :: t := by
      cases n with
      | ofNat n => exact List.exists_cons_of_ne_nil (Numeral.natural_ne_nil n)
      | negSucc n => exact ⟨_, _, rfl⟩
    refine ⟨c, t, ht, hnumber c (digits_integer (n := n) ?_)⟩
    rw [ht]
    exact List.mem_cons_self ..
  | float bits =>
    obtain ⟨c, t, ht, hc⟩ := F.head bits hv
    exact ⟨c, t, ht, hnumber c hc⟩
  | str s => exact ⟨_, _, rfl, by decide, by decide⟩
  | list xs => exact ⟨_, _, rfl, by decide, by decide⟩
  | obj fields => exact ⟨_, _, rfl, by decide, by decide⟩

theorem printItems_cons (x : JsonValue) (xs : List JsonValue) :
    ∃ more, printItems F (x :: xs) = print F x ++ more := by
  cases xs with
  | nil => exact ⟨_, by rw [printItems]⟩
  | cons y ys => exact ⟨_, by rw [printItems]⟩

theorem printFields_cons (p : String × JsonValue) (fs : List (String × JsonValue)) :
    ∃ t, printFields F (p :: fs) = '"' :: t := by
  cases fs with
  | nil => exact ⟨_, by rw [printFields, quote_append]⟩
  | cons q fs => exact ⟨_, by rw [printFields, quote_append]⟩

theorem items_last {fuel : ℕ} {t rest : List Char} {x : JsonValue}
    (h : value F fuel t = some (x, ']' :: rest)) : items F (fuel + 1) t = some ([x], rest) := by
  rw [items, h]
  simp only [skip_cons (c := ']') rfl]

theorem items_more {fuel : ℕ} {t rest : List Char} {x : JsonValue}
    (h : value F fuel t = some (x, ',' :: rest)) : items F (fuel + 1) t =
      (items F fuel rest).map fun (xs, rest) => (x :: xs, rest) := by
  rw [items, h]
  simp only [skip_cons (c := ',') rfl]

/-- The start of a field: its key and its value. -/
theorem fields_start {fuel : ℕ} {key : String} {v : JsonValue} {t rest : List Char}
    (h : value F fuel t = some (v, rest)) (d : Dict) : fields F (fuel + 1) d
      (quote key ++ ':' :: t) =
        match skip rest with
        | '}' :: rest => some (d.set key v, rest)
        | ',' :: rest => fields F fuel (d.set key v) rest
        | _ => none := by
  rw [quote_append, fields, skip_cons rfl]
  simp only [stringBody_quote, skip_cons (c := ':') rfl, h, String.ofList_toList]

mutual

theorem value_print : ∀ {v : JsonValue}, v.isFinite = true → v.isDict = true → ∀ {fuel : ℕ},
    cost v ≤ fuel → ∀ {rest : List Char}, Stops rest →
      value F fuel (print F v ++ rest) = some (v, rest)
  | v, hfinite, hdict, 0, hfuel, rest, hrest => by
    have hpos := cost_pos v
    omega
  | .null, hfinite, hdict, fuel + 1, hfuel, rest, hrest => value_null F fuel rest
  | .bool true, hfinite, hdict, fuel + 1, hfuel, rest, hrest => value_true F fuel rest
  | .bool false, hfinite, hdict, fuel + 1, hfuel, rest, hrest => value_false F fuel rest
  | .int n, hfinite, hdict, fuel + 1, hfuel, rest, hrest => by
    have hnumber := number_integer F n hrest
    obtain ⟨c, t, ht⟩ : ∃ c t, Numeral.integer n = c :: t := by
      cases n with
      | ofNat n => exact List.exists_cons_of_ne_nil (Numeral.natural_ne_nil n)
      | negSucc n => exact ⟨_, _, rfl⟩
    have hc : c = '-' ∨ c.isDigit = true := by
      refine digits_integer (n := n) ?_
      rw [ht]
      exact List.mem_cons_self ..
    rw [print, ← hnumber, ht]
    exact value_number F hc fuel _
  | .float bits, hfinite, hdict, fuel + 1, hfuel, rest, hrest => by
    have hnumber : number F (F.repr bits ++ rest) = some (.float bits, rest) :=
      number_float F hfinite hrest
    obtain ⟨c, t, ht, hc⟩ := F.head bits hfinite
    rw [print, ← hnumber, ht]
    exact value_number F hc fuel _
  | .str s, hfinite, hdict, fuel + 1, hfuel, rest, hrest => value_str F s fuel rest
  | .list [], hfinite, hdict, fuel + 1, hfuel, rest, hrest => rfl
  | .list (x :: xs), hfinite, hdict, fuel + 1, hfuel, rest, hrest => by
    have hitems : items F fuel (printItems F (x :: xs) ++ ']' :: rest) = some (x :: xs, rest) :=
      items_print (List.cons_ne_nil x xs) hfinite hdict (Nat.le_of_succ_le_succ hfuel)
    have hx : x.isFinite = true := by
      rw [JsonValue.isFinite, JsonValue.isFiniteList, Bool.and_eq_true] at hfinite
      exact hfinite.1
    obtain ⟨c, t, ht, hblank, hc⟩ := print_head F hx
    obtain ⟨t', ht'⟩ : ∃ t', printItems F (x :: xs) = c :: t' := by
      obtain ⟨more, hmore⟩ := printItems_cons F x xs
      exact ⟨t ++ more, by rw [hmore, ht, List.cons_append]⟩
    rw [print, List.cons_append, List.append_assoc, List.singleton_append, ht', List.cons_append,
      value_items F fuel hblank hc, ← List.cons_append, ← ht', hitems]
    rfl
  | .obj [], hfinite, hdict, fuel + 1, hfuel, rest, hrest => rfl
  | .obj (p :: fs), hfinite, hdict, fuel + 1, hfuel, rest, hrest => by
    rw [JsonValue.isDict, Bool.and_eq_true, decide_eq_true_eq] at hdict
    have hfields : fields F fuel [] (printFields F (p :: fs) ++ '}' :: rest) =
        some (p :: fs, rest) :=
      fields_print (List.cons_ne_nil p fs) hfinite hdict.2 (Nat.le_of_succ_le_succ hfuel) hdict.1
    obtain ⟨t, ht⟩ := printFields_cons F p fs
    rw [print, List.cons_append, List.append_assoc, List.singleton_append, ht, List.cons_append,
      value_fields, ← List.cons_append, ← ht, hfields]
    rfl

theorem items_print : ∀ {xs : List JsonValue}, xs ≠ [] → JsonValue.isFiniteList xs = true →
    JsonValue.isDictList xs = true → ∀ {fuel : ℕ}, costItems xs ≤ fuel → ∀ {rest : List Char},
      items F fuel (printItems F xs ++ ']' :: rest) = some (xs, rest)
  | [], hne, _, _, _, _, _ => absurd rfl hne
  | x :: xs, _, hfinite, hdict, 0, hfuel, rest => by
    rw [costItems] at hfuel
    omega
  | x :: xs, _, hfinite, hdict, fuel + 1, hfuel, rest => by
    rw [JsonValue.isFiniteList, Bool.and_eq_true] at hfinite
    rw [JsonValue.isDictList, Bool.and_eq_true] at hdict
    rw [costItems] at hfuel
    have hx : ∀ {rest}, Stops rest → value F fuel (print F x ++ rest) = some (x, rest) :=
      value_print hfinite.1 hdict.1 (by omega)
    cases xs with
    | nil =>
      rw [printItems, List.append_assoc]
      exact items_last F (hx fun c hc => by cases hc; rfl)
    | cons y ys =>
      rw [printItems, List.append_assoc, List.cons_append,
        items_more F (hx fun c hc => by cases hc; rfl),
        items_print (List.cons_ne_nil y ys) hfinite.2 hdict.2 (by omega)]
      rfl

theorem fields_print : ∀ {fs : List (String × JsonValue)}, fs ≠ [] →
    JsonValue.isFiniteFields fs = true → JsonValue.isDictFields fs = true → ∀ {fuel : ℕ},
      costFields fs ≤ fuel → ∀ {d : Dict}, ((d ++ fs).map (·.1)).Nodup → ∀ {rest : List Char},
        fields F fuel d (printFields F fs ++ '}' :: rest) = some (d ++ fs, rest)
  | [], hne, _, _, _, _, _, _, _ => absurd rfl hne
  | (key, v) :: fs, _, hfinite, hdict, 0, hfuel, d, hnodup, rest => by
    rw [costFields] at hfuel
    omega
  | (key, v) :: fs, _, hfinite, hdict, fuel + 1, hfuel, d, hnodup, rest => by
    rw [JsonValue.isFiniteFields, Bool.and_eq_true] at hfinite
    rw [JsonValue.isDictFields, Bool.and_eq_true] at hdict
    rw [costFields] at hfuel
    have hv : ∀ {rest}, Stops rest → value F fuel (print F v ++ rest) = some (v, rest) :=
      value_print hfinite.1 hdict.1 (by omega)
    have hnew : key ∉ d.map (·.1) := by
      rw [List.map_append, List.nodup_append] at hnodup
      intro hmem
      exact hnodup.2.2 key hmem key (List.mem_cons_self ..) rfl
    cases fs with
    | nil =>
      rw [printFields, List.append_assoc, List.cons_append, List.append_assoc,
        fields_start F (hv fun c hc => by cases hc; rfl), Dict.set_of_not_mem hnew]
      rfl
    | cons q fs =>
      have hnext : (((d ++ [(key, v)]) ++ q :: fs).map (·.1)).Nodup := by
        rwa [List.append_assoc, List.singleton_append]
      rw [printFields, List.append_assoc, List.cons_append, List.append_assoc, List.cons_append,
        fields_start F (hv fun c hc => by cases hc; rfl), Dict.set_of_not_mem hnew]
      simp only [skip_cons (c := ',') rfl]
      rw [fields_print (List.cons_ne_nil q fs) hfinite.2 hdict.2 (by omega) hnext,
        List.append_assoc, List.singleton_append]

end

theorem one_le_print {v : JsonValue} (hv : v.isFinite = true) :
    1 ≤ 2 * (print F v).length := by
  obtain ⟨c, t, ht, -⟩ := print_head F hv
  rw [ht, List.length_cons]
  omega

mutual

theorem cost_le : ∀ {v : JsonValue}, v.isFinite = true → cost v ≤ 2 * (print F v).length
  | .null, h => one_le_print F h
  | .bool _, h => one_le_print F h
  | .int _, h => one_le_print F h
  | .float _, h => one_le_print F h
  | .str _, h => one_le_print F h
  | .list xs, h => by
    have hitems := costItems_le h
    rw [cost, print, List.length_cons, List.length_append, List.length_singleton]
    omega
  | .obj fields, h => by
    have hfields := costFields_le h
    rw [cost, print, List.length_cons, List.length_append, List.length_singleton]
    omega

theorem costItems_le : ∀ {xs : List JsonValue}, JsonValue.isFiniteList xs = true →
    costItems xs ≤ 2 * (printItems F xs).length + 1
  | [], _ => Nat.zero_le _
  | x :: xs, h => by
    rw [JsonValue.isFiniteList, Bool.and_eq_true] at h
    have hx := cost_le h.1
    have hxs := costItems_le h.2
    cases xs with
    | nil =>
      rw [costItems, costItems, printItems, List.length_append]
      omega
    | cons y ys =>
      rw [costItems, printItems, List.length_append, List.length_cons]
      omega

theorem costFields_le : ∀ {fs : List (String × JsonValue)}, JsonValue.isFiniteFields fs = true →
    costFields fs ≤ 2 * (printFields F fs).length + 1
  | [], _ => Nat.zero_le _
  | (key, v) :: fs, h => by
    rw [JsonValue.isFiniteFields, Bool.and_eq_true] at h
    have hv := cost_le h.1
    have hfs := costFields_le h.2
    cases fs with
    | nil =>
      simp only [costFields, printFields, List.length_append, List.length_cons]
      omega
    | cons q fs =>
      rw [costFields, printFields, List.length_append, List.length_cons, List.length_append,
        List.length_cons]
      omega

end

/-- **What is written is read back.** -/
theorem loads_print {v : JsonValue} (hfinite : v.isFinite = true) (hdict : v.isDict = true) :
    loads F (print F v) = some v := by
  have hcost := cost_le F hfinite
  have hfuel : cost v ≤ 2 * (print F v).length + 1 := by omega
  have hstops : Stops [] := fun c hc => (by cases hc)
  have hvalue := value_print F hfinite hdict hfuel hstops
  rw [List.append_nil] at hvalue
  rw [loads, hvalue]
  rfl

/-- `json.dumps(value, separators=(",", ":"), sort_keys=True)`. -/
def dumps (v : JsonValue) : List Char := print F v.sortKeys

/-- The same, with its keys in order. -/
theorem loads_dumps {v : JsonValue} (hfinite : v.isFinite = true) (hdict : v.isDict = true) :
    loads F (dumps F v) = some v.sortKeys :=
  loads_print F (JsonValue.isFinite_sortKeys hfinite) (JsonValue.isDict_sortKeys hdict)

end

end Json

end AegisPlatform
