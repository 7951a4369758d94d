import Mathlib.Data.List.Basic
import Mathlib.Data.List.TakeWhile
import Mathlib.Tactic.Ring
import Mathlib.Tactic.NormNum
import Mathlib.Algebra.Order.Field.Rat

/-!
# Identifiers, instants and JSON

The values the platform's records are made of.

* `UUID` and `UUID.str` — identifiers and their text form.  Streams and outbox
  payloads name a work item by the text of its identifier, so the text has to
  determine the identifier: `UUID.str_injective`.
* `Timestamp` — an instant, in microseconds.
* `JsonValue`, `Dict` — the JSON values of payloads.  A `Dict` is a Python
  `dict`: `Dict.set` overwrites in place or appends, and `Dict.get?_set` says
  what a lookup sees afterwards.
* `JsonValue.pyEq` — Python's `==` on JSON values, under which `True`, `1` and
  `1.0` are one value.
-/

namespace AegisPlatform

/-! ## Identifiers -/

/-- A 128-bit identifier. -/
structure UUID where
  /-- The identifier as a number. -/
  int : Fin (2 ^ 128)
  deriving DecidableEq, Repr

/-- A lower-case hexadecimal digit. -/
def hexDigit (n : ℕ) : Char :=
  if n < 10 then Char.ofNat (48 + n) else Char.ofNat (87 + n)

/-- The last `k` hexadecimal digits of a number, most significant first. -/
def hexDigits (n : ℕ) : ℕ → List Char
  | 0 => []
  | k + 1 => hexDigits (n / 16) k ++ [hexDigit (n % 16)]

namespace UUID

/-- The identifier of a number, taken modulo `2 ^ 128`. -/
def ofNat (n : ℕ) : UUID := ⟨Fin.ofNat (2 ^ 128) n⟩

/-- The 32 hexadecimal digits of an identifier. -/
def hex (u : UUID) : List Char := hexDigits u.int.val 32

/-- `str(uuid)`: the digits in groups of 8, 4, 4, 4 and 12. -/
def str (u : UUID) : String :=
  String.ofList (u.hex.take 8 ++ '-' :: ((u.hex.drop 8).take 4 ++ '-' ::
    ((u.hex.drop 12).take 4 ++ '-' :: ((u.hex.drop 16).take 4 ++ '-' :: u.hex.drop 20))))

end UUID

theorem hexDigit_injOn {m n : ℕ} (hm : m < 16) (hn : n < 16) (h : hexDigit m = hexDigit n) :
    m = n := by
  have hall : ∀ m < 16, ∀ n < 16, hexDigit m = hexDigit n → m = n := by decide
  exact hall m hm n hn h

theorem length_hexDigits (n k : ℕ) : (hexDigits n k).length = k := by
  induction k generalizing n with
  | zero => rfl
  | succ k ih => simp [hexDigits, ih]

/-- Digits determine the number they were taken from, up to the digits dropped. -/
theorem hexDigits_inj {k m n : ℕ} (h : hexDigits m k = hexDigits n k) :
    m % 16 ^ k = n % 16 ^ k := by
  induction k generalizing m n with
  | zero => simp [Nat.mod_one]
  | succ k ih =>
    rw [hexDigits, hexDigits] at h
    obtain ⟨hinit, hlast⟩ := List.append_inj' h rfl
    have hdigit : m % 16 = n % 16 :=
      hexDigit_injOn (Nat.mod_lt _ (by decide)) (Nat.mod_lt _ (by decide)) (by simpa using hlast)
    have hrest := ih hinit
    rw [pow_succ', Nat.mod_mul, Nat.mod_mul, hdigit, hrest]

namespace UUID

theorem length_hex (u : UUID) : u.hex.length = 32 := length_hexDigits _ _

theorem hex_injective {u v : UUID} (h : u.hex = v.hex) : u = v := by
  have hmod := hexDigits_inj h
  have hpow : (16 : ℕ) ^ 32 = 2 ^ 128 := by norm_num
  rw [hpow, Nat.mod_eq_of_lt u.int.isLt, Nat.mod_eq_of_lt v.int.isLt] at hmod
  cases u; cases v
  exact congrArg UUID.mk (Fin.ext hmod)

/-- The five groups of digits, put back together. -/
theorem groups (l : List Char) : l.take 8 ++ ((l.drop 8).take 4 ++ ((l.drop 12).take 4 ++
    ((l.drop 16).take 4 ++ l.drop 20))) = l := by
  have e1 : l.drop 20 = (l.drop 16).drop 4 := by rw [List.drop_drop]
  have e2 : l.drop 16 = (l.drop 12).drop 4 := by rw [List.drop_drop]
  have e3 : l.drop 12 = (l.drop 8).drop 4 := by rw [List.drop_drop]
  rw [e1, List.take_append_drop, e2, List.take_append_drop, e3, List.take_append_drop,
    List.take_append_drop]

/-- **The text of an identifier determines it**, so distinct work items have
distinct streams and distinct outbox labels. -/
theorem str_injective {u v : UUID} (h : u.str = v.str) : u = v := by
  have hl := String.ofList_injective h
  have hu := u.length_hex
  have hv := v.length_hex
  obtain ⟨h1, hl⟩ := List.append_inj hl (by simp [hu, hv])
  obtain ⟨h2, hl⟩ := List.append_inj (List.cons.inj hl).2 (by simp [hu, hv])
  obtain ⟨h3, hl⟩ := List.append_inj (List.cons.inj hl).2 (by simp [hu, hv])
  obtain ⟨h4, hl⟩ := List.append_inj (List.cons.inj hl).2 (by simp [hu, hv])
  have h5 := (List.cons.inj hl).2
  refine hex_injective ?_
  rw [← groups u.hex, ← groups v.hex, h1, h2, h3, h4, h5]

@[simp] theorem str_inj {u v : UUID} : u.str = v.str ↔ u = v :=
  ⟨str_injective, fun h => by rw [h]⟩

end UUID

/-! ## Text -/

/-- `c.isspace()`: the characters `str.strip` removes. -/
def isSpace (c : Char) : Bool :=
  let n := c.toNat
  (9 ≤ n && n ≤ 13) || (28 ≤ n && n ≤ 32) || n = 0x85 || n = 0xA0 || n = 0x1680 ||
  (0x2000 ≤ n && n ≤ 0x200A) || n = 0x2028 || n = 0x2029 || n = 0x202F || n = 0x205F || n = 0x3000

/-- `not s.strip()`. -/
def isBlank (s : String) : Bool := s.toList.all isSpace

theorem UUID.isBlank_str (u : UUID) : isBlank u.str = false := by
  have hmem : '-' ∈ u.str.toList := by
    rw [UUID.str, String.toList_ofList]
    exact List.mem_append_right _ (List.mem_cons_self ..)
  by_contra hblank
  have hall : ∀ c ∈ u.str.toList, isSpace c = true := by simpa [isBlank] using hblank
  exact absurd (hall _ hmem) (by decide)

/-- `s.strip()`. -/
def strip (s : String) : String :=
  String.ofList ((s.toList.dropWhile isSpace).reverse.dropWhile isSpace).reverse

/-- `_validate_identifier`: a non-empty normalized identifier. -/
def isIdentifier (s : String) : Bool := s ≠ "" && s = strip s && s.toList.length ≤ 128

theorem isBlank_of_isIdentifier {s : String} (h : isIdentifier s = true) : isBlank s = false := by
  simp only [isIdentifier, Bool.and_eq_true, decide_eq_true_eq] at h
  obtain ⟨⟨hne, hstrip⟩, -⟩ := h
  by_contra hblank
  have hall : ∀ c ∈ s.toList, isSpace c = true := by simpa [isBlank] using hblank
  refine hne (hstrip.trans ?_)
  rw [strip, List.dropWhile_eq_nil_iff.2 hall]
  rfl

/-! ## Instants -/

/-- An instant, in microseconds since the epoch.  Every entry point rejects
timezone-naive datetimes, so only instants are modelled. -/
abbrev Timestamp := ℤ

/-- A duration of whole seconds, in microseconds. -/
def seconds (n : ℤ) : ℤ := n * 1000000

/-! ## JSON -/

/-- A JSON value as Python holds it.  A float is kept by its IEEE bits. -/
inductive JsonValue where
  | null
  | bool (b : Bool)
  | int (n : ℤ)
  | float (bits : BitVec 64)
  | str (s : String)
  | list (xs : List JsonValue)
  | obj (fields : List (String × JsonValue))
  deriving Repr, Inhabited

/-- A Python `dict` with string keys, in insertion order. -/
abbrev Dict := List (String × JsonValue)

namespace Dict

/-- `d.get(key)`. -/
def get? (d : Dict) (key : String) : Option JsonValue := d.lookup key

/-- `d[key] = value`: in place when the key is there, else at the end. -/
def set : Dict → String → JsonValue → Dict
  | [], key, value => [(key, value)]
  | (k, v) :: rest, key, value =>
    if k = key then (k, value) :: rest else (k, v) :: set rest key value

/-- `d.update(other)`. -/
def update (d other : Dict) : Dict := other.foldl (fun acc p => acc.set p.1 p.2) d

theorem get?_set (d : Dict) (key : String) (value : JsonValue) (k : String) :
    (d.set key value).get? k = if k = key then some value else d.get? k := by
  induction d with
  | nil =>
    by_cases hk : k = key
    · simp [set, get?, hk]
    · simp [set, get?, List.lookup_cons, hk, beq_eq_false_iff_ne.2 hk]
  | cons p rest ih =>
    obtain ⟨k', v'⟩ := p
    rw [set]
    by_cases hkey : k' = key
    · subst hkey
      by_cases hk : k = k'
      · simp [get?, hk]
      · simp [get?, List.lookup_cons, hk, beq_eq_false_iff_ne.2 hk]
    · rw [if_neg hkey]
      by_cases hk : k = k'
      · subst hk
        simp [get?, hkey]
      · simpa [get?, List.lookup_cons, beq_eq_false_iff_ne.2 hk] using ih

@[simp] theorem get?_set_self (d : Dict) (key : String) (value : JsonValue) :
    (d.set key value).get? key = some value := by rw [get?_set, if_pos rfl]

theorem get?_set_ne {d : Dict} {key k : String} {value : JsonValue} (h : k ≠ key) :
    (d.set key value).get? k = d.get? k := by rw [get?_set, if_neg h]

/-- A new field comes last. -/
theorem set_of_not_mem {d : Dict} {key : String} (h : key ∉ d.map (·.1)) (value : JsonValue) :
    d.set key value = d ++ [(key, value)] := by
  induction d with
  | nil => rfl
  | cons p rest ih =>
    rw [List.map_cons, List.mem_cons, not_or] at h
    rw [set, if_neg fun heq => h.1 heq.symm, ih h.2]
    rfl

/-- An update leaves every other field as it is. -/
theorem get?_update_of_not_mem {d other : Dict} {k : String} (h : k ∉ other.map (·.1)) :
    (d.update other).get? k = d.get? k := by
  unfold update
  induction other generalizing d with
  | nil => rfl
  | cons p rest ih =>
    rw [List.map_cons, List.mem_cons, not_or] at h
    rw [List.foldl_cons, ih h.2, get?_set_ne h.1]

end Dict

/-! ## Python equality on JSON values -/

/-- The exact value of a finite IEEE double; `none` for infinities and NaNs. -/
def floatValue (bits : BitVec 64) : Option ℚ :=
  let fraction : ℕ := bits.toNat % 2 ^ 52
  let exponent : ℕ := bits.toNat / 2 ^ 52 % 2 ^ 11
  let sign : ℚ := if bits.toNat / 2 ^ 63 = 0 then 1 else -1
  if exponent = 2047 then none
  else if exponent = 0 then some (sign * fraction / 2 ^ 1074)
  else some (sign * (2 ^ 52 + fraction) * 2 ^ (exponent + 1) / 2 ^ 1076)

namespace JsonValue

/-- The number a JSON scalar stands for under `==`: booleans are `0` and `1`. -/
def number? : JsonValue → Option ℚ
  | bool b => some (if b then 1 else 0)
  | int n => some n
  | float bits => floatValue bits
  | _ => none

mutual

/-- `a == b` in Python. -/
def pyEq : JsonValue → JsonValue → Bool
  | null, null => true
  | str s, str t => s == t
  | list xs, list ys => pyEqList xs ys
  | obj fs, obj gs => fs.length == gs.length && pyEqFields fs gs
  | a, b =>
    match number? a, number? b with
    | some x, some y => decide (x = y)
    | _, _ => false

/-- Elementwise equality of sequences. -/
def pyEqList : List JsonValue → List JsonValue → Bool
  | [], [] => true
  | x :: xs, y :: ys => pyEq x y && pyEqList xs ys
  | _, _ => false

/-- Every field of the first mapping is an equal field of the second. -/
def pyEqFields : List (String × JsonValue) → List (String × JsonValue) → Bool
  | [], _ => true
  | (k, v) :: rest, gs =>
    (match gs.lookup k with
      | some w => pyEq v w
      | none => false) && pyEqFields rest gs

end

mutual

/-- No number in the value is an infinity or a NaN. -/
def isFinite : JsonValue → Bool
  | float bits => (floatValue bits).isSome
  | list xs => isFiniteList xs
  | obj fields => isFiniteFields fields
  | _ => true

/-- No number in the values is an infinity or a NaN. -/
def isFiniteList : List JsonValue → Bool
  | [] => true
  | x :: xs => isFinite x && isFiniteList xs

/-- No number in the fields is an infinity or a NaN. -/
def isFiniteFields : List (String × JsonValue) → Bool
  | [] => true
  | (_, v) :: rest => isFinite v && isFiniteFields rest

end

theorem isFiniteFields_set {d : Dict} {key : String} {value : JsonValue}
    (hd : isFiniteFields d = true) (hv : isFinite value = true) :
    isFiniteFields (d.set key value) = true := by
  induction d with
  | nil => simp [Dict.set, isFiniteFields, hv]
  | cons p rest ih =>
    obtain ⟨k, v⟩ := p
    rw [isFiniteFields, Bool.and_eq_true] at hd
    rw [Dict.set]
    split
    · rw [isFiniteFields, hv, hd.2]; rfl
    · rw [isFiniteFields, hd.1, ih hd.2]; rfl

theorem isFiniteFields_update {d other : Dict} (hd : isFiniteFields d = true)
    (ho : isFiniteFields other = true) : isFiniteFields (d.update other) = true := by
  unfold Dict.update
  induction other generalizing d with
  | nil => exact hd
  | cons p rest ih =>
    obtain ⟨k, v⟩ := p
    rw [isFiniteFields, Bool.and_eq_true] at ho
    exact ih (isFiniteFields_set hd ho.1) ho.2

theorem isFiniteList_map_str (xs : List String) : isFiniteList (xs.map str) = true := by
  induction xs with
  | nil => rfl
  | cons x xs ih => exact ih

/-- `payload->>'key'` of a `jsonb` object: the text of a string field. -/
def text? (fields : Dict) (key : String) : Option String :=
  match fields.get? key with
  | some (str s) => some s
  | _ => none

end JsonValue

end AegisPlatform
