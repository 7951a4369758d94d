import AegisPlatform.Identity.Jwks

/-!
# Fresh keys

Sequences of calls of `get_key`, each with what the endpoint does should it be asked.

* `completed` — the refreshes that have completed, with the documents they fetched.
* `Fresh` — the cache holds the keys of the last of them, until its time is over; `fresh_getKey`
  is its preservation.
* `jwks_fresh` — what a call returns, and what a failed refresh leaves.
-/

namespace AegisPlatform

open Fallible Jwks

/-- A refresh that has completed. -/
structure Refresh where
  fetchedAt : ℚ
  document : List JsonValue

/-- The key is in the document. -/
def Refresh.Holds (crypto : Cryptography) (r : Refresh) (key : VerificationKey) : Prop :=
  ∃ raw ∈ r.document, parseRsaJwk crypto raw = .ok (some key)

namespace RemoteJwksProvider

section

variable (crypto : Cryptography) (conv : Conversions)

/-- The provider after a sequence of calls. -/
def after (p : RemoteJwksProvider) (calls : List KeyCall) : RemoteJwksProvider :=
  calls.foldl (fun p c => (p.getKey crypto conv c).2) p

/-- The refresh that a call completes, if it does. -/
def completes (p : RemoteJwksProvider) (c : KeyCall) : Option Refresh :=
  if p.documentExpiresAt ≤ c.now then
    match p.document conv c.opened with
    | .ok raws => if (collect crypto .empty raws).isOk then some ⟨c.now, raws⟩ else none
    | .error _ => none
  else none

/-- The refreshes that a sequence of calls completes. -/
def completed : RemoteJwksProvider → List KeyCall → List Refresh
  | _, [] => []
  | p, c :: rest => (p.completes crypto conv c).toList ++ completed (p.getKey crypto conv c).2 rest

end

/-- A provider just made. -/
def IsNew (p : RemoteJwksProvider) : Prop :=
  p.cachedKeys = .empty ∧ p.documentExpiresAt = 0

/-- The cache holds the keys of the last refresh, and expires with it. -/
def Fresh (crypto : Cryptography) (p : RemoteJwksProvider) (log : List Refresh) : Prop :=
  match log.getLast? with
  | none => p.cachedKeys = .empty
  | some r => collect crypto .empty r.document = .ok p.cachedKeys ∧
      p.documentExpiresAt = r.fetchedAt + p.cacheTtlSeconds

variable {crypto : Cryptography} {conv : Conversions} {p : RemoteJwksProvider} {c : KeyCall}

/-! ## One call -/

/-- **What a call does**: it answers from the cache, it fails with its refresh and changes
nothing, or it completes a refresh and answers from that. -/
theorem getKey_cases (crypto : Cryptography) (conv : Conversions) (p : RemoteJwksProvider)
    (c : KeyCall) :
    (c.now < p.documentExpiresAt ∧ p.completes crypto conv c = none ∧
      p.getKey crypto conv c = (p.answer c.keyId, p)) ∨
    (p.documentExpiresAt ≤ c.now ∧ p.completes crypto conv c = none ∧
      ∃ e, p.refresh crypto conv c.now c.opened = .error e ∧
        p.getKey crypto conv c = (.error e, p)) ∨
    ∃ raws keys, p.completes crypto conv c = some ⟨c.now, raws⟩ ∧
      collect crypto .empty raws = .ok keys ∧
      p.refresh crypto conv c.now c.opened =
        .ok { p with cachedKeys := keys, documentExpiresAt := c.now + p.cacheTtlSeconds } ∧
      p.getKey crypto conv c =
        (RemoteJwksProvider.answer
          { p with cachedKeys := keys, documentExpiresAt := c.now + p.cacheTtlSeconds } c.keyId,
          { p with cachedKeys := keys, documentExpiresAt := c.now + p.cacheTtlSeconds }) := by
  rw [getKey, completes]
  by_cases hexpired : p.documentExpiresAt ≤ c.now
  · right
    rw [if_pos hexpired, if_pos hexpired, refresh]
    cases hdocument : p.document conv c.opened with
    | error e => exact .inl ⟨hexpired, rfl, e, rfl, rfl⟩
    | ok raws =>
      rw [ok_bind]
      cases hkeys : collect crypto .empty raws with
      | error e => exact .inl ⟨hexpired, by simp [hkeys, Except.isOk, Except.toBool], e, rfl, rfl⟩
      | ok keys => exact .inr ⟨raws, keys, by simp [hkeys, Except.isOk, Except.toBool], hkeys, rfl, rfl⟩
  · rw [if_neg hexpired, if_neg hexpired]
    exact .inl ⟨not_le.1 hexpired, rfl, rfl⟩

theorem cacheTtlSeconds_getKey (c : KeyCall) :
    (p.getKey crypto conv c).2.cacheTtlSeconds = p.cacheTtlSeconds := by
  rcases getKey_cases crypto conv p c with ⟨-, -, h⟩ | ⟨-, -, _, -, h⟩ | ⟨_, _, -, -, -, h⟩ <;>
    rw [h]

/-- A call keeps the cache fresh. -/
theorem fresh_getKey {log : List Refresh} (hfresh : Fresh crypto p log) (c : KeyCall) :
    Fresh crypto (p.getKey crypto conv c).2 (log ++ (p.completes crypto conv c).toList) := by
  rcases getKey_cases crypto conv p c with
    ⟨-, hnone, h⟩ | ⟨-, hnone, _, -, h⟩ | ⟨raws, keys, hsome, hkeys, -, h⟩
  · rw [h, hnone, Option.toList_none, List.append_nil]
    exact hfresh
  · rw [h, hnone, Option.toList_none, List.append_nil]
    exact hfresh
  · rw [h, hsome, Option.toList_some, Fresh, List.getLast?_concat]
    exact ⟨hkeys, rfl⟩

/-- A key that is returned is in the cache, and the cache has not expired. -/
theorem getKey_cached {key : VerificationKey} (h : (p.getKey crypto conv c).1 = .ok key) :
    key ∈ (p.getKey crypto conv c).2.cachedKeys.keys ∧
      c.now < (p.getKey crypto conv c).2.documentExpiresAt := by
  rcases getKey_cases crypto conv p c with
    ⟨hcurrent, -, hcall⟩ | ⟨-, -, _, -, hcall⟩ | ⟨raws, keys, -, -, -, hcall⟩
  · rw [hcall] at h ⊢
    exact ⟨(KeySet.get?_keyId (answer_eq_ok.1 h)).1, hcurrent⟩
  · rw [hcall] at h
    cases h
  · rw [hcall] at h ⊢
    refine ⟨(KeySet.get?_keyId (answer_eq_ok.1 h)).1, lt_add_of_pos_right _ ?_⟩
    exact lt_of_lt_of_le one_pos p.valid.2.1

/-- The keys of a document come from it. -/
theorem collect_holds {s s' : KeySet} {raws : List JsonValue} {key : VerificationKey}
    (h : collect crypto s raws = .ok s') (hkey : key ∈ s'.keys) :
    key ∈ s.keys ∨ ∃ raw ∈ raws, parseRsaJwk crypto raw = .ok (some key) := by
  induction raws generalizing s with
  | nil =>
    cases h
    exact .inl hkey
  | cons raw rest ih =>
    rw [collect, bind_eq_ok] at h
    obtain ⟨parsed, hparsed, h⟩ := h
    cases parsed with
    | none =>
      refine (ih h).imp_right ?_
      rintro ⟨raw', hmem, hraw'⟩
      exact ⟨raw', List.mem_cons_of_mem _ hmem, hraw'⟩
    | some first =>
      simp only [bind_eq_ok] at h
      obtain ⟨s₁, hadd, h⟩ := h
      rcases ih h with hmem | ⟨raw', hmem, hraw'⟩
      · rw [KeySet.add] at hadd
        split at hadd
        · cases hadd
        · cases hadd
          rcases List.mem_cons.1 hmem with rfl | hmem
          · exact .inr ⟨raw, List.mem_cons_self, hparsed⟩
          · exact .inl hmem
      · exact .inr ⟨raw', List.mem_cons_of_mem _ hmem, hraw'⟩

/-! ## Sequences of calls -/

theorem after_append (before : List KeyCall) (c : KeyCall) :
    p.after crypto conv (before ++ [c]) = ((p.after crypto conv before).getKey crypto conv c).2 := by
  rw [after, List.foldl_append]
  rfl

theorem cacheTtlSeconds_after (calls : List KeyCall) :
    (p.after crypto conv calls).cacheTtlSeconds = p.cacheTtlSeconds := by
  induction calls generalizing p with
  | nil => rfl
  | cons c rest ih => exact (ih (p := (p.getKey crypto conv c).2)).trans (cacheTtlSeconds_getKey c)

theorem fresh_after {log : List Refresh} (hfresh : Fresh crypto p log) (calls : List KeyCall) :
    Fresh crypto (p.after crypto conv calls) (log ++ p.completed crypto conv calls) := by
  induction calls generalizing p log with
  | nil =>
    rw [completed, List.append_nil]
    exact hfresh
  | cons c rest ih =>
    rw [completed, ← List.append_assoc]
    exact ih (fresh_getKey hfresh c)

/-- A refresh is fetched at the time of a call. -/
theorem fetchedAt_of_completed {calls : List KeyCall} {r : Refresh}
    (h : r ∈ p.completed crypto conv calls) : ∃ c ∈ calls, r.fetchedAt = c.now := by
  induction calls generalizing p with
  | nil => cases h
  | cons c rest ih =>
    rcases List.mem_append.1 h with h | h
    · refine ⟨c, List.mem_cons_self, ?_⟩
      rcases getKey_cases crypto conv p c with
        ⟨-, hnone, -⟩ | ⟨-, hnone, -⟩ | ⟨raws, keys, hsome, -⟩
      · rw [hnone] at h
        cases h
      · rw [hnone] at h
        cases h
      · rw [hsome, Option.toList_some, List.mem_singleton] at h
        rw [h]
    · obtain ⟨c', hc', hr⟩ := ih h
      exact ⟨c', List.mem_cons_of_mem _ hc', hr⟩

/-- A key that is returned is held by the last refresh, whose time is not over. -/
theorem getKey_fresh (hnew : p.IsNew) {before : List KeyCall}
    (hclock : (before ++ [c]).Pairwise fun c c' => c.now ≤ c'.now) {key : VerificationKey}
    (h : ((p.after crypto conv before).getKey crypto conv c).1 = .ok key) :
    ∃ r, (p.completed crypto conv (before ++ [c])).getLast? = some r ∧ r.Holds crypto key ∧
      r.fetchedAt ≤ c.now ∧ c.now < r.fetchedAt + p.cacheTtlSeconds := by
  obtain ⟨hcached, hcurrent⟩ := getKey_cached h
  rw [← after_append] at hcached hcurrent
  have hempty : Fresh crypto p [] := hnew.1
  have hfresh : Fresh crypto (p.after crypto conv (before ++ [c]))
      (p.completed crypto conv (before ++ [c])) := fresh_after hempty _
  rw [Fresh] at hfresh
  cases hlast : (p.completed crypto conv (before ++ [c])).getLast? with
  | none =>
    simp only [hlast] at hfresh
    rw [hfresh] at hcached
    cases hcached
  | some r =>
    simp only [hlast] at hfresh
    obtain ⟨hkeys, hexpires⟩ := hfresh
    obtain ⟨c', hc', hfetched⟩ := fetchedAt_of_completed (List.mem_of_getLast? hlast)
    refine ⟨r, rfl, (collect_holds hkeys hcached).resolve_left (by rintro ⟨⟩), ?_, ?_⟩
    · rw [hfetched]
      rcases List.mem_append.1 hc' with hc' | hc'
      · exact (List.pairwise_append.1 hclock).2.2 c' hc' c (List.mem_singleton_self c)
      · rw [List.mem_singleton.1 hc']
    · rw [hexpires, cacheTtlSeconds_after] at hcurrent
      exact hcurrent

/-- **Keys are fresh.**  A key that is returned is in the document of the last refresh that
completed, less than the time to live ago; a refresh that fails makes the call raise and changes
nothing; and so a key is not returned once the time of every document that held it is over. -/
theorem jwks_fresh (hnew : p.IsNew) {before : List KeyCall}
    (hclock : (before ++ [c]).Pairwise fun c c' => c.now ≤ c'.now) :
    (∀ key, ((p.after crypto conv before).getKey crypto conv c).1 = .ok key →
      key.keyId = c.keyId ∧
      ∃ r, (p.completed crypto conv (before ++ [c])).getLast? = some r ∧ r.Holds crypto key ∧
        r.fetchedAt ≤ c.now ∧ c.now < r.fetchedAt + p.cacheTtlSeconds) ∧
    (∀ e, (p.after crypto conv before).documentExpiresAt ≤ c.now →
      (p.after crypto conv before).refresh crypto conv c.now c.opened = .error e →
      (p.after crypto conv before).getKey crypto conv c =
        (.error e, p.after crypto conv before)) ∧
    ∀ keyId, (∀ r ∈ p.completed crypto conv (before ++ [c]),
        (∃ key, r.Holds crypto key ∧ key.keyId = keyId) →
          r.fetchedAt + p.cacheTtlSeconds ≤ c.now) →
      ∀ key, ((p.after crypto conv before).getKey crypto conv c).1 = .ok key →
        key.keyId ≠ keyId := by
  refine ⟨fun key h => ⟨getKey_keyId h, getKey_fresh hnew hclock h⟩, fun e hexpired he => ?_,
    fun keyId hover key h hkeyId => ?_⟩
  · rw [getKey, if_pos hexpired, he]
  · obtain ⟨r, hlast, hholds, -, hcurrent⟩ := getKey_fresh hnew hclock h
    have hle := hover r (List.mem_of_getLast? hlast) ⟨key, hholds, hkeyId⟩
    exact absurd hcurrent (not_lt.2 hle)

/-- The first call fetches the document, the second one is answered from the cache. -/
theorem jwks_fresh_twice :
    let fetch : KeyCall := ⟨10, "current", .ok ⟨none, .ok (sampleBody "current")⟩⟩
    let again : KeyCall := ⟨300, "current", .error .urlError⟩
    ((sampleProvider.after sampleCryptography (sampleConversions "current") [fetch]).getKey
        sampleCryptography (sampleConversions "current") again).1.isOk = true ∧
    ∀ key, ((sampleProvider.after sampleCryptography (sampleConversions "current") [fetch]).getKey
        sampleCryptography (sampleConversions "current") again).1 = .ok key →
      key.keyId = "current" ∧ ∃ r : Refresh, r.Holds sampleCryptography key ∧
        r.fetchedAt ≤ 300 ∧ 300 < r.fetchedAt + 300 := by
  intro fetch again
  constructor
  · have hparse : parseRsaJwk sampleCryptography (sampleKey "current") = .ok (some
        ⟨"current", "RS256", samplePem.toUTF8.data.toList,
          by decide, by decide, sampleCryptography.publicBytes_ne ()⟩) := by
      have hjwk : rsaJwk (sampleKey "current") =
          some ⟨"current", "RS256", sampleModulus, "AQAB"⟩ := rfl
      simp only [parseRsaJwk, hjwk, sampleKey_publicKey]
      exact congrArg _ (dif_pos _)
    have hexpired : sampleProvider.documentExpiresAt ≤ fetch.now := by decide +kernel
    have hcurrent : ¬ (10 + 300 : ℚ) ≤ 300 := by decide +kernel
    have hfirst : (sampleProvider.getKey sampleCryptography (sampleConversions "current") fetch).2 =
        { sampleProvider with
          cachedKeys := ⟨[⟨"current", "RS256", samplePem.toUTF8.data.toList,
            by decide, by decide, sampleCryptography.publicBytes_ne ()⟩], List.nodup_singleton _⟩
          documentExpiresAt := 10 + 300 } := by
      rw [getKey, if_pos hexpired, refresh, document_sample, ok_bind, collect, hparse]
      rfl
    show ((sampleProvider.getKey sampleCryptography (sampleConversions "current") fetch).2.getKey
      sampleCryptography (sampleConversions "current") again).1.isOk = true
    rw [hfirst, getKey, if_neg hcurrent]
    rfl
  · intro key hkey
    have hclock : ([fetch] ++ [again]).Pairwise fun c c' => c.now ≤ c'.now := by
      refine List.pairwise_pair.2 ?_
      decide +kernel
    obtain ⟨hkeyId, r, -, hholds, hfetched, hover⟩ :=
      (jwks_fresh (show sampleProvider.IsNew from ⟨rfl, rfl⟩) hclock).1 key hkey
    exact ⟨hkeyId, r, hholds, hfetched, hover⟩

end RemoteJwksProvider

end AegisPlatform
