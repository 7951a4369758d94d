import AegisPlatform.Domain.Values

/-!
# Equality of JSON values

Python compares mappings without regard to the order of their keys, and a `dict` has no key
twice.  Under that proviso `==` is reflexive on finite values.

* `JsonValue.induct` — induction over a value and what it holds.
* `JsonValue.isDict` — no mapping in the value has a key twice.
* `pyEq_obj_iff`, `pyEq_refl` — the laws of `==`.
-/

namespace AegisPlatform

namespace JsonValue

/-- Induction over a value: what holds of every element holds of a list of them, what holds
of every field holds of a mapping. -/
theorem induct {P : JsonValue → Prop} (null : P null) (bool : ∀ b, P (bool b))
    (int : ∀ n, P (int n)) (float : ∀ bits, P (float bits)) (str : ∀ s, P (str s))
    (list : ∀ xs, (∀ x ∈ xs, P x) → P (list xs))
    (obj : ∀ fields, (∀ field ∈ fields, P field.2) → P (obj fields)) (v : JsonValue) : P v := by
  refine @JsonValue.rec P (fun xs => ∀ x ∈ xs, P x) (fun fields => ∀ field ∈ fields, P field.2)
    (fun field => P field.2) null bool int float str list obj ?_ ?_ ?_ ?_ ?_ v
  · exact fun _ h => (by cases h)
  · intro x xs hx hxs y hy
    rcases List.mem_cons.1 hy with rfl | hy
    · exact hx
    · exact hxs y hy
  · exact fun _ h => (by cases h)
  · intro field fields hfield hfields other hother
    rcases List.mem_cons.1 hother with rfl | hother
    · exact hfield
    · exact hfields other hother
  · exact fun _ _ h => h

mutual

/-- No mapping in the value has a key twice. -/
def isDict : JsonValue → Bool
  | list xs => isDictList xs
  | obj fields => decide (fields.map (·.1)).Nodup && isDictFields fields
  | _ => true

/-- No mapping in the values has a key twice. -/
def isDictList : List JsonValue → Bool
  | [] => true
  | x :: xs => isDict x && isDictList xs

/-- No mapping in the values of the fields has a key twice. -/
def isDictFields : List (String × JsonValue) → Bool
  | [] => true
  | (_, v) :: rest => isDict v && isDictFields rest

end

theorem isDictList_iff {xs : List JsonValue} :
    isDictList xs = true ↔ ∀ x ∈ xs, isDict x = true := by
  induction xs with
  | nil => simp [isDictList]
  | cons x xs ih => simp [isDictList, ih]

theorem isDictFields_iff {fields : Dict} :
    isDictFields fields = true ↔ ∀ field ∈ fields, isDict field.2 = true := by
  induction fields with
  | nil => simp [isDictFields]
  | cons field fields ih => simp [isDictFields, ih]

theorem isDict_obj_iff {fields : Dict} : isDict (obj fields) = true ↔
    (fields.map (·.1)).Nodup ∧ ∀ field ∈ fields, isDict field.2 = true := by
  rw [isDict, Bool.and_eq_true, decide_eq_true_eq, isDictFields_iff]

theorem isFiniteList_iff {xs : List JsonValue} :
    isFiniteList xs = true ↔ ∀ x ∈ xs, isFinite x = true := by
  induction xs with
  | nil => simp [isFiniteList]
  | cons x xs ih => simp [isFiniteList, ih]

theorem isFiniteFields_iff {fields : Dict} :
    isFiniteFields fields = true ↔ ∀ field ∈ fields, isFinite field.2 = true := by
  induction fields with
  | nil => simp [isFiniteFields]
  | cons field fields ih => simp [isFiniteFields, ih]

/-! ## Fields by their keys -/

theorem mem_of_lookup {fields : Dict} {key : String} {v : JsonValue}
    (h : fields.lookup key = some v) : (key, v) ∈ fields := by
  induction fields with
  | nil => cases h
  | cons field fields ih =>
    obtain ⟨k, w⟩ := field
    rw [List.lookup_cons] at h
    split at h
    · rename_i hk
      cases h
      rw [eq_of_beq hk]
      exact List.mem_cons_self ..
    · exact List.mem_cons_of_mem _ (ih h)

/-- A field is found under its key, if no key is there twice. -/
theorem lookup_of_mem {fields : Dict} (hkeys : (fields.map (·.1)).Nodup) {key : String}
    {v : JsonValue} (h : (key, v) ∈ fields) : fields.lookup key = some v := by
  induction fields with
  | nil => cases h
  | cons field fields ih =>
    obtain ⟨k, w⟩ := field
    rw [List.map_cons, List.nodup_cons] at hkeys
    rw [List.lookup_cons]
    rcases List.mem_cons.1 h with heq | hrest
    · cases heq
      simp
    · have hne : (key == k) = false := by
        rw [beq_eq_false_iff_ne]
        rintro rfl
        exact hkeys.1 (List.mem_map.2 ⟨(key, v), hrest, rfl⟩)
      rw [hne]
      exact ih hkeys.2 hrest

/-! ## The laws of `==` -/

/-- Fields are equal if each is found, with an equal value. -/
theorem pyEqFields_iff {fs gs : Dict} : pyEqFields fs gs = true ↔
    ∀ field ∈ fs, ∃ w, gs.lookup field.1 = some w ∧ pyEq field.2 w = true := by
  induction fs with
  | nil => simp [pyEqFields]
  | cons field fs ih =>
    obtain ⟨k, v⟩ := field
    rw [pyEqFields, Bool.and_eq_true, ih, List.forall_mem_cons]
    refine and_congr_left fun _ => ?_
    cases gs.lookup k with
    | none => simp
    | some w => simp

theorem pyEq_obj_iff {fs gs : Dict} : pyEq (obj fs) (obj gs) = true ↔
    fs.length = gs.length ∧
      ∀ field ∈ fs, ∃ w, gs.lookup field.1 = some w ∧ pyEq field.2 w = true := by
  rw [pyEq, Bool.and_eq_true, beq_iff_eq, pyEqFields_iff]

theorem pyEqList_refl {xs : List JsonValue} (h : ∀ x ∈ xs, pyEq x x = true) :
    pyEqList xs xs = true := by
  induction xs with
  | nil => rfl
  | cons x xs ih =>
    rw [pyEqList, h x (List.mem_cons_self ..), ih fun y hy => h y (List.mem_cons_of_mem _ hy)]
    rfl

/-- A finite value is equal to itself. -/
theorem pyEq_refl {v : JsonValue} (hdict : isDict v = true) (hfinite : isFinite v = true) :
    pyEq v v = true := by
  induction v using induct with
  | null => rfl
  | bool b => simp [pyEq, number?]
  | int n => simp [pyEq, number?]
  | float bits =>
    rw [isFinite, Option.isSome_iff_exists] at hfinite
    obtain ⟨x, hx⟩ := hfinite
    simp [pyEq, number?, hx]
  | str s => simp [pyEq]
  | list xs ih =>
    rw [isDict, isDictList_iff] at hdict
    rw [isFinite, isFiniteList_iff] at hfinite
    rw [pyEq]
    exact pyEqList_refl fun x hx => ih x hx (hdict x hx) (hfinite x hx)
  | obj fields ih =>
    rw [isDict_obj_iff] at hdict
    rw [isFinite, isFiniteFields_iff] at hfinite
    refine pyEq_obj_iff.2 ⟨rfl, fun field hfield => ⟨field.2, ?_, ?_⟩⟩
    · exact lookup_of_mem hdict.1 hfield
    · exact ih field hfield (hdict.2 field hfield) (hfinite field hfield)

end JsonValue

end AegisPlatform
