import AegisPlatform.Queueing.Publisher
import Mathlib.Algebra.Order.Field.Rat

/-!
# Signing keys

`RemoteJwksProvider`: the keys of a JWKS document, kept for a while.

* `parseRsaJwk`, `collect` — a key of the document, and all of them.
* `RemoteJwksProvider.refresh`, `getKey` — the document is fetched when the keys have expired.
* `getKey_contained_iff` — when nothing but an `AuthenticationError` is raised.
* `jwks_fresh` — what is returned, over a sequence of calls.

Readings of the clock are seconds, as rationals.  RSA keys and base64 are parameters.
-/

namespace AegisPlatform

open Fallible

/-! ## Keys and errors -/

inductive AuthenticationErrorCode where
  | missingToken
  | malformedToken
  | expiredToken
  | wrongIssuer
  | wrongAudience
  | invalidSignature
  | unsupportedAlgorithm
  | signingKeyUnavailable
  | invalidClaims
  | unknownIdentity
  | tenantMismatch
  | identityDisabled
  deriving DecidableEq, Repr

structure AuthenticationError where
  code : AuthenticationErrorCode
  message : String
  deriving DecidableEq, Repr

/-- What `urlopen` and the reading of the response may raise. -/
inductive TransportError where
  | httpError
  | urlError
  | timeoutError
  /-- Any other exception, such as `IncompleteRead`. -/
  | other
  deriving DecidableEq, Repr

/-- What `get_key` may raise. -/
inductive JwksRaised where
  | authenticationError (error : AuthenticationError)
  /-- The `ValueError` of a constructor. -/
  | valueError (message : String)
  | transport (error : TransportError)
  /-- An exception of `json.loads`. -/
  | loads (error : PyError)
  deriving DecidableEq, Repr

/-- Is it an `AuthenticationError`? -/
def JwksRaised.isAuthenticationError : JwksRaised → Bool
  | authenticationError _ => true
  | _ => false

/-- `AuthenticationError(SIGNING_KEY_UNAVAILABLE, message)`. -/
def unavailable (message : String) : JwksRaised :=
  .authenticationError ⟨.signingKeyUnavailable, message⟩

/-- `VerificationKey`. -/
structure VerificationKey where
  keyId : String
  algorithm : String
  pem : List UInt8
  valid : keyId ≠ "" ∧ algorithm ≠ "" ∧ pem ≠ []
  deriving DecidableEq, Repr

/-- `__post_init__`. -/
def VerificationKey.make (keyId algorithm : String) (pem : List UInt8) :
    Except JwksRaised VerificationKey :=
  if h : keyId ≠ "" ∧ algorithm ≠ "" ∧ pem ≠ [] then .ok ⟨keyId, algorithm, pem, h⟩
  else .error (.valueError "verification key fields are required")

/-! ## Parsing -/

/-- What bad key material raises. -/
inductive MaterialError where
  | typeError
  | valueError
  deriving DecidableEq, Repr

/-- `jwt.utils.base64url_decode` and the RSA keys of `cryptography`. -/
structure Cryptography where
  base64urlDecode : String → Except MaterialError (List UInt8)
  PublicKey : Type
  /-- `RSAPublicNumbers(exponent, modulus).public_key()`. -/
  publicKey : ℕ → ℕ → Except MaterialError PublicKey
  /-- `public_bytes` in PEM. -/
  publicBytes : PublicKey → List UInt8
  publicBytes_ne : ∀ key, publicBytes key ≠ []

/-- `int.from_bytes(raw, "big")`. -/
def intFromBytes (raw : List UInt8) : ℕ := raw.foldl (fun n byte => 256 * n + byte.toNat) 0

/-- The fields of an RSA key. -/
structure RsaJwk where
  kid : String
  alg : String
  n : String
  e : String

/-- The fields of a raw key, if it is a dictionary with all of them and of the right type. -/
def rsaJwk : JsonValue → Option RsaJwk
  | .obj fields =>
    match Dict.get? fields "kid", Dict.get? fields "alg", Dict.get? fields "kty",
      Dict.get? fields "n", Dict.get? fields "e" with
    | some (.str kid), some (.str alg), some (.str kty), some (.str n), some (.str e) =>
      if kty = "RSA" then some ⟨kid, alg, n, e⟩ else none
    | _, _, _, _, _ => none
  | _ => none

section

variable (crypto : Cryptography)

/-- The key of the material. -/
def RsaJwk.publicKey (jwk : RsaJwk) : Except MaterialError crypto.PublicKey := do
  let modulus ← crypto.base64urlDecode jwk.n
  let exponent ← crypto.base64urlDecode jwk.e
  crypto.publicKey (intFromBytes exponent) (intFromBytes modulus)

/-- `_parse_rsa_jwk`. -/
def parseRsaJwk (raw : JsonValue) : Except JwksRaised (Option VerificationKey) :=
  match rsaJwk raw with
  | none => .ok none
  | some jwk =>
    match jwk.publicKey crypto with
    | .error _ => .error (unavailable "JWKS key material is invalid")
    | .ok publicKey =>
      (VerificationKey.make jwk.kid jwk.alg (crypto.publicBytes publicKey)).map some

/-- `refreshed_keys`: a dictionary of keys by their identifiers. -/
structure KeySet where
  keys : List VerificationKey
  nodup : (keys.map (·.keyId)).Nodup

namespace KeySet

def empty : KeySet := ⟨[], List.nodup_nil⟩

/-- `keys.get(key_id)`. -/
def get? (s : KeySet) (keyId : String) : Option VerificationKey :=
  s.keys.find? fun key => key.keyId = keyId

/-- `keys[key.key_id] = key`, for an identifier that is not there. -/
def add (s : KeySet) (key : VerificationKey) : Except JwksRaised KeySet :=
  if h : key.keyId ∈ s.keys.map (·.keyId) then
    .error (unavailable "JWKS document contains duplicate key IDs")
  else .ok ⟨key :: s.keys, List.nodup_cons.2 ⟨h, s.nodup⟩⟩

end KeySet

/-- The loop of `_refresh`. -/
def collect (s : KeySet) : List JsonValue → Except JwksRaised KeySet
  | [] => .ok s
  | raw :: rest => do
    match ← parseRsaJwk crypto raw with
    | none => collect s rest
    | some key => collect (← s.add key) rest

end

/-! ## The provider -/

/-- The response of an endpoint. -/
structure HttpResponse where
  /-- `geturl()`, if there is one. -/
  geturl : Option String
  read : Except TransportError (List UInt8)

/-- What `urlopen` returns or raises. -/
abbrev Urlopen := Except TransportError HttpResponse

/-- `text.startswith(start)`. -/
def startswith (text start : String) : Bool := start.toList.isPrefixOf text.toList

/-- A URL that keys may come from. -/
def isSecure (allowHttp : Bool) (url : String) : Bool :=
  startswith url "https://" || allowHttp && startswith url "http://"

structure RemoteJwksProvider where
  jwksUrl : String
  allowHttp : Bool
  cacheTtlSeconds : ℚ
  valid : isSecure allowHttp jwksUrl = true ∧ 1 ≤ cacheTtlSeconds ∧ cacheTtlSeconds ≤ 3600
  cachedKeys : KeySet := .empty
  documentExpiresAt : ℚ := 0

/-- The exceptions of the transport that are caught. -/
def TransportError.isCaught : TransportError → Bool
  | httpError | urlError | timeoutError => true
  | other => false

def unreachable : JwksRaised := unavailable "JWKS endpoint could not provide signing keys"

/-- What comes of an exception of the transport. -/
def raisedByTransport (e : TransportError) : JwksRaised :=
  if e.isCaught then unreachable else .transport e

/-- What comes of an exception of `json.loads`. -/
def raisedByLoads : PyError → JwksRaised
  | .unicodeDecodeError | .jsonDecodeError => unreachable
  | e => .loads e

/-- One call of `get_key`: the clock's reading, the key asked for, and what the endpoint does if
it is asked. -/
structure KeyCall where
  now : ℚ
  keyId : String
  opened : Urlopen

namespace RemoteJwksProvider

section

variable (crypto : Cryptography) (conv : Conversions) (p : RemoteJwksProvider)

/-- The first half of `_refresh`: the body of the response. -/
def body (opened : Urlopen) : Except JwksRaised (List UInt8) := do
  let response ← opened.mapError raisedByTransport
  raiseIf (isSecure p.allowHttp (response.geturl.getD p.jwksUrl) = false)
    (unavailable "JWKS endpoint redirected to a non-HTTPS URL")
  response.read.mapError raisedByTransport

/-- The list of raw keys of a document. -/
def rawKeys : JsonValue → Except JwksRaised (List JsonValue)
  | .obj fields =>
    match Dict.get? fields "keys" with
    | some (.list raws) => .ok raws
    | _ => .error (unavailable "JWKS document is invalid")
  | _ => .error (unavailable "JWKS document is invalid")

/-- What `_refresh` finds at the endpoint. -/
def document (opened : Urlopen) : Except JwksRaised (List JsonValue) := do
  let raw ← p.body opened
  let value ← (conv.loads raw).mapError raisedByLoads
  rawKeys value

/-- `_refresh`. -/
def refresh (now : ℚ) (opened : Urlopen) : Except JwksRaised RemoteJwksProvider := do
  let raws ← p.document conv opened
  let keys ← collect crypto .empty raws
  return { p with cachedKeys := keys, documentExpiresAt := now + p.cacheTtlSeconds }

/-- The answer from the cache. -/
def answer (keyId : String) : Except JwksRaised VerificationKey :=
  orRaise (unavailable "signing key was not found") (p.cachedKeys.get? keyId)

/-- `get_key`, and the provider after it. -/
def getKey (c : KeyCall) : Except JwksRaised VerificationKey × RemoteJwksProvider :=
  if p.documentExpiresAt ≤ c.now then
    match p.refresh crypto conv c.now c.opened with
    | .ok p' => (p'.answer c.keyId, p')
    | .error e => (.error e, p)
  else (p.answer c.keyId, p)

end

end RemoteJwksProvider

/-! ## What escapes -/

namespace Jwks

section

variable (crypto : Cryptography)

/-- An RSA key whose material is refused. -/
def Refused (raw : JsonValue) : Prop :=
  ∃ jwk, rsaJwk raw = some jwk ∧ ∃ e, jwk.publicKey crypto = .error e

/-- An RSA key of good material without an identifier or an algorithm. -/
def Blank (raw : JsonValue) : Prop :=
  ∃ jwk, rsaJwk raw = some jwk ∧ (∃ publicKey, jwk.publicKey crypto = .ok publicKey) ∧
    (jwk.kid = "" ∨ jwk.alg = "")

/-- The identifiers of the RSA keys. -/
def keyIds (raws : List JsonValue) : List String :=
  raws.filterMap fun raw => (rsaJwk raw).map (·.kid)

/-- The loop gets past these keys. -/
structure Passes (taken : List String) (raws : List JsonValue) : Prop where
  accepted : ∀ raw ∈ raws, ¬ Refused crypto raw
  distinct : (keyIds raws).Nodup
  apart : ∀ keyId ∈ keyIds raws, keyId ∉ taken

/-- The loop comes to a blank key. -/
def Stumbles (taken : List String) (raws : List JsonValue) : Prop :=
  ∃ before raw after, raws = before ++ raw :: after ∧ Blank crypto raw ∧ Passes crypto taken before

/-- Something else than an `AuthenticationError` is raised. -/
def Escapes {α : Type} (x : Except JwksRaised α) : Prop :=
  ∃ e, x = .error e ∧ e.isAuthenticationError = false

variable {crypto} {α β : Type} {taken : List String} {raw : JsonValue} {rest : List JsonValue}

theorem escapes_bind {x : Except JwksRaised α} {f : α → Except JwksRaised β} :
    Escapes (x >>= f) ↔ Escapes x ∨ ∃ a, x = .ok a ∧ Escapes (f a) := by
  cases x with
  | ok a =>
    constructor
    · exact fun h => .inr ⟨a, rfl, h⟩
    · rintro (⟨_, h, _⟩ | ⟨_, h, hf⟩)
      · cases h
      · cases h
        exact hf
  | error e =>
    constructor
    · rintro ⟨_, h, he⟩
      cases h
      exact .inl ⟨_, rfl, he⟩
    · rintro (⟨_, h, he⟩ | ⟨_, h, _⟩)
      · cases h
        exact ⟨_, rfl, he⟩
      · cases h

theorem not_escapes_ok (a : α) : ¬ Escapes (.ok a : Except JwksRaised α) :=
  fun ⟨_, h, _⟩ => by cases h

theorem not_escapes_unavailable (message : String) :
    ¬ Escapes (.error (unavailable message) : Except JwksRaised α) := by
  rintro ⟨_, h, he⟩
  cases h
  cases he

/-- What comes of a raw key. -/
theorem parseRsaJwk_cases (crypto : Cryptography) (raw : JsonValue) :
    (rsaJwk raw = none ∧ parseRsaJwk crypto raw = .ok none) ∨
    (Refused crypto raw ∧
      parseRsaJwk crypto raw = .error (unavailable "JWKS key material is invalid")) ∨
    (Blank crypto raw ∧
      parseRsaJwk crypto raw = .error (.valueError "verification key fields are required")) ∨
    ∃ jwk key, rsaJwk raw = some jwk ∧ ¬ Refused crypto raw ∧ ¬ Blank crypto raw ∧
      key.keyId = jwk.kid ∧ parseRsaJwk crypto raw = .ok (some key) := by
  rw [parseRsaJwk]
  cases hjwk : rsaJwk raw with
  | none => exact .inl ⟨rfl, rfl⟩
  | some jwk =>
    right
    cases hkey : jwk.publicKey crypto with
    | error e => exact .inl ⟨⟨jwk, hjwk, e, hkey⟩, by simp only [hkey]⟩
    | ok publicKey =>
      right
      simp only [hkey, VerificationKey.make]
      by_cases hblank : jwk.kid = "" ∨ jwk.alg = ""
      · refine .inl ⟨⟨jwk, hjwk, ⟨publicKey, hkey⟩, hblank⟩, ?_⟩
        rw [dif_neg fun h => hblank.elim h.1 h.2.1]
        rfl
      · have hvalid : jwk.kid ≠ "" ∧ jwk.alg ≠ "" ∧ crypto.publicBytes publicKey ≠ [] :=
          ⟨fun h => hblank (.inl h), fun h => hblank (.inr h), crypto.publicBytes_ne _⟩
        rw [dif_pos hvalid]
        refine .inr ⟨jwk, _, rfl, ?_, ?_, rfl, rfl⟩
        · rintro ⟨jwk', hjwk', e, he⟩
          rw [Option.some.inj (hjwk.symm.trans hjwk'), he] at hkey
          cases hkey
        · rintro ⟨jwk', hjwk', -, hblank'⟩
          rw [← Option.some.inj (hjwk.symm.trans hjwk')] at hblank'
          exact hblank hblank'

theorem keyIds_cons : keyIds (raw :: rest) = ((rsaJwk raw).map (·.kid)).toList ++ keyIds rest := by
  rw [keyIds, List.filterMap_cons]
  cases rsaJwk raw <;> rfl

theorem stumbles_cons_of_blank (h : Blank crypto raw) : Stumbles crypto taken (raw :: rest) :=
  ⟨[], raw, rest, rfl, h, ⟨fun _ h => absurd h List.not_mem_nil, List.nodup_nil,
    fun _ h => absurd h List.not_mem_nil⟩⟩

theorem stumbles_cons (h : ¬ Blank crypto raw) :
    Stumbles crypto taken (raw :: rest) ↔ ∃ before raw' after, rest = before ++ raw' :: after ∧
      Blank crypto raw' ∧ Passes crypto taken (raw :: before) := by
  constructor
  · rintro ⟨before, raw', after, heq, hblank, hpasses⟩
    cases before with
    | nil =>
      cases heq
      exact absurd hblank h
    | cons first before =>
      cases heq
      exact ⟨before, raw', after, rfl, hblank, hpasses⟩
  · rintro ⟨before, raw', after, rfl, hblank, hpasses⟩
    exact ⟨raw :: before, raw', after, rfl, hblank, hpasses⟩

/-- Getting past one more key. -/
theorem passes_cons : Passes crypto taken (raw :: rest) ↔ ¬ Refused crypto raw ∧
    (∀ jwk, rsaJwk raw = some jwk → jwk.kid ∉ taken) ∧
    Passes crypto (((rsaJwk raw).map (·.kid)).toList ++ taken) rest := by
  cases hjwk : rsaJwk raw with
  | none =>
    constructor
    · rintro ⟨haccepted, hdistinct, hapart⟩
      rw [keyIds_cons, hjwk] at hdistinct hapart
      exact ⟨haccepted raw List.mem_cons_self, fun _ h => (by cases h),
        ⟨fun r hr => haccepted r (List.mem_cons_of_mem _ hr), hdistinct, hapart⟩⟩
    · rintro ⟨hraw, -, ⟨haccepted, hdistinct, hapart⟩⟩
      refine ⟨List.forall_mem_cons.2 ⟨hraw, haccepted⟩, ?_, ?_⟩
      · rwa [keyIds_cons, hjwk]
      · rwa [keyIds_cons, hjwk]
  | some jwk =>
    have hids : keyIds (raw :: rest) = jwk.kid :: keyIds rest := by rw [keyIds_cons, hjwk]; rfl
    constructor
    · rintro ⟨haccepted, hdistinct, hapart⟩
      rw [hids] at hdistinct hapart
      obtain ⟨hfresh, hdistinct⟩ := List.nodup_cons.1 hdistinct
      refine ⟨haccepted raw List.mem_cons_self, ?_,
        ⟨fun r hr => haccepted r (List.mem_cons_of_mem _ hr), hdistinct, ?_⟩⟩
      · rintro _ h
        cases h
        exact hapart _ List.mem_cons_self
      · intro keyId hkeyId hmem
        rcases List.mem_cons.1 hmem with rfl | hmem
        · exact hfresh hkeyId
        · exact hapart keyId (List.mem_cons_of_mem _ hkeyId) hmem
    · rintro ⟨hraw, htaken, ⟨haccepted, hdistinct, hapart⟩⟩
      refine ⟨List.forall_mem_cons.2 ⟨hraw, haccepted⟩, ?_, ?_⟩
      · rw [hids]
        exact List.nodup_cons.2 ⟨fun hmem => hapart _ hmem List.mem_cons_self, hdistinct⟩
      · rw [hids]
        refine List.forall_mem_cons.2 ⟨htaken jwk rfl, fun keyId hkeyId hmem => ?_⟩
        exact hapart keyId hkeyId (List.mem_cons_of_mem _ hmem)

/-- **The loop lets an exception out exactly where it comes to a blank key.** -/
theorem collect_escapes_iff (s : KeySet) (raws : List JsonValue) :
    Escapes (collect crypto s raws) ↔ Stumbles crypto (s.keys.map (·.keyId)) raws := by
  induction raws generalizing s with
  | nil =>
    refine iff_of_false (not_escapes_ok s) ?_
    rintro ⟨before, raw, after, heq, -⟩
    exact absurd heq.symm (List.append_ne_nil_of_right_ne_nil before (List.cons_ne_nil raw after))
  | cons raw rest ih =>
    rw [collect, escapes_bind]
    rcases parseRsaJwk_cases crypto raw with ⟨hjwk, hparse⟩ | ⟨hrefused, hparse⟩ |
      ⟨hblank, hparse⟩ | ⟨jwk, key, hjwk, hrefused, hblank, hkeyId, hparse⟩
    · have hblank : ¬ Blank crypto raw := fun ⟨_, h, _⟩ => by rw [hjwk] at h; cases h
      have hrefused : ¬ Refused crypto raw := fun ⟨_, h, _⟩ => by rw [hjwk] at h; cases h
      rw [hparse, stumbles_cons hblank]
      simp only [passes_cons, hjwk]
      constructor
      · rintro (h | ⟨_, h, hrest⟩)
        · exact absurd h (not_escapes_ok _)
        · cases h
          obtain ⟨before, raw', after, heq, hblank', hpasses⟩ := (ih s).1 hrest
          exact ⟨before, raw', after, heq, hblank', hrefused, fun _ h => (by cases h), hpasses⟩
      · rintro ⟨before, raw', after, heq, hblank', -, -, hpasses⟩
        exact .inr ⟨none, rfl, (ih s).2 ⟨before, raw', after, heq, hblank', hpasses⟩⟩
    · have hblank : ¬ Blank crypto raw := by
        rintro ⟨jwk, hjwk, ⟨publicKey, hkey⟩, -⟩
        obtain ⟨jwk', hjwk', e, he⟩ := hrefused
        rw [Option.some.inj (hjwk.symm.trans hjwk'), he] at hkey
        cases hkey
      rw [hparse, stumbles_cons hblank]
      refine iff_of_false ?_ ?_
      · rintro (h | ⟨_, h, -⟩)
        · exact not_escapes_unavailable _ h
        · cases h
      · rintro ⟨before, raw', after, -, -, hpasses⟩
        exact hpasses.accepted raw List.mem_cons_self hrefused
    · refine iff_of_true (.inl ⟨_, hparse, rfl⟩) (stumbles_cons_of_blank hblank)
    · rw [hparse, stumbles_cons hblank]
      simp only [passes_cons, hjwk]
      by_cases htaken : key.keyId ∈ s.keys.map (·.keyId)
      · refine iff_of_false ?_ ?_
        · rintro (h | ⟨_, h, hrest⟩)
          · exact absurd h (not_escapes_ok _)
          · cases h
            simp only [KeySet.add, dif_pos htaken] at hrest
            exact not_escapes_unavailable _ hrest
        · rintro ⟨before, raw', after, -, -, -, hapart, -⟩
          exact hapart jwk rfl (hkeyId ▸ htaken)
      · have hadd : s.add key = .ok ⟨key :: s.keys, List.nodup_cons.2 ⟨htaken, s.nodup⟩⟩ :=
          dif_neg htaken
        have hrest := ih ⟨key :: s.keys, List.nodup_cons.2 ⟨htaken, s.nodup⟩⟩
        constructor
        · rintro (h | ⟨_, h, h'⟩)
          · exact absurd h (not_escapes_ok _)
          · cases h
            simp only [hadd] at h'
            obtain ⟨before, raw', after, heq, hblank', hpasses⟩ := hrest.1 h'
            refine ⟨before, raw', after, heq, hblank', hrefused, ?_, ?_⟩
            · rintro _ h
              cases h
              exact hkeyId ▸ htaken
            · rw [List.map_cons, hkeyId] at hpasses
              exact hpasses
        · rintro ⟨before, raw', after, heq, hblank', -, -, hpasses⟩
          refine .inr ⟨some key, rfl, ?_⟩
          simp only [hadd]
          refine hrest.2 ⟨before, raw', after, heq, hblank', ?_⟩
          rw [List.map_cons, hkeyId]
          exact hpasses

/-! ### One call -/

/-- The key asked for, or an `AuthenticationError`. -/
def Contained (keyId : String) : Except JwksRaised VerificationKey → Prop
  | .ok key => key.keyId = keyId
  | .error e => e.isAuthenticationError = true

/-- What `json.loads` makes of a body that does no harm. -/
def Harmless (crypto : Cryptography) : Except PyError JsonValue → Prop
  | .error e => e = .unicodeDecodeError ∨ e = .jsonDecodeError
  | .ok (.obj fields) =>
    ∀ raws, Dict.get? fields "keys" = some (.list raws) → ¬ Stumbles crypto [] raws
  | .ok _ => True

theorem contained_iff {keyId : String} {x : Except JwksRaised VerificationKey}
    (h : ∀ key, x = .ok key → key.keyId = keyId) : Contained keyId x ↔ ¬ Escapes x := by
  cases x with
  | ok key => exact iff_of_true (h key rfl) (not_escapes_ok key)
  | error e =>
    constructor
    · rintro he ⟨_, heq, he'⟩
      cases heq
      exact absurd (he.symm.trans he') (by decide)
    · intro h
      by_contra he
      exact h ⟨e, rfl, Bool.eq_false_iff.2 he⟩

theorem KeySet.get?_keyId {s : KeySet} {keyId : String} {key : VerificationKey}
    (h : s.get? keyId = some key) : key ∈ s.keys ∧ key.keyId = keyId := by
  rw [KeySet.get?] at h
  exact ⟨List.mem_of_find?_eq_some h, by simpa using List.find?_some h⟩

variable {conv : Conversions} {p : RemoteJwksProvider} {opened : Urlopen}

theorem answer_eq_ok {keyId : String} {key : VerificationKey} :
    p.answer keyId = .ok key ↔ p.cachedKeys.get? keyId = some key := by
  rw [RemoteJwksProvider.answer, orRaise_eq_ok]

theorem not_escapes_answer (p : RemoteJwksProvider) (keyId : String) :
    ¬ Escapes (p.answer keyId) := by
  rw [RemoteJwksProvider.answer]
  cases p.cachedKeys.get? keyId with
  | none => exact not_escapes_unavailable _
  | some key => exact not_escapes_ok key

/-- **The key returned is the key asked for.** -/
theorem getKey_keyId {c : KeyCall} {key : VerificationKey}
    (h : (p.getKey crypto conv c).1 = .ok key) : key.keyId = c.keyId := by
  rw [RemoteJwksProvider.getKey] at h
  split at h
  · split at h
    · exact (KeySet.get?_keyId (answer_eq_ok.1 h)).2
    · cases h
  · exact (KeySet.get?_keyId (answer_eq_ok.1 h)).2

theorem getKey_escapes_iff {c : KeyCall} : Escapes (p.getKey crypto conv c).1 ↔
    p.documentExpiresAt ≤ c.now ∧ Escapes (p.refresh crypto conv c.now c.opened) := by
  rw [RemoteJwksProvider.getKey]
  by_cases hexpired : p.documentExpiresAt ≤ c.now
  · rw [if_pos hexpired]
    cases p.refresh crypto conv c.now c.opened with
    | ok p' => exact iff_of_false (not_escapes_answer p' _) fun h => not_escapes_ok p' h.2
    | error e =>
      constructor
      · rintro ⟨_, heq, he⟩
        cases heq
        exact ⟨hexpired, e, rfl, he⟩
      · rintro ⟨-, _, heq, he⟩
        cases heq
        exact ⟨e, rfl, he⟩
  · rw [if_neg hexpired]
    exact iff_of_false (not_escapes_answer p _) fun h => hexpired h.1

theorem loads_escapes_iff (x : Except PyError JsonValue) :
    Escapes (x.mapError raisedByLoads >>= RemoteJwksProvider.rawKeys) ∨
      (∃ raws, (x.mapError raisedByLoads >>= RemoteJwksProvider.rawKeys) = .ok raws ∧
        Stumbles crypto [] raws) ↔ ¬ Harmless crypto x := by
  cases x with
  | error e =>
    have hraised : (Except.error e : Except PyError JsonValue).mapError raisedByLoads >>=
        RemoteJwksProvider.rawKeys = .error (raisedByLoads e) := rfl
    rw [hraised]
    constructor
    · rintro (⟨_, heq, he⟩ | ⟨_, heq, -⟩) hharmless
      · cases heq
        rcases hharmless with rfl | rfl <;> cases he
      · cases heq
    · intro h
      refine .inl ⟨_, rfl, ?_⟩
      cases e <;> first | rfl | exact absurd (.inl rfl) h | exact absurd (.inr rfl) h
  | ok value =>
    have hvalue : (Except.ok value : Except PyError JsonValue).mapError raisedByLoads >>=
        RemoteJwksProvider.rawKeys = RemoteJwksProvider.rawKeys value := rfl
    rw [hvalue]
    cases value with
    | obj fields =>
      rw [RemoteJwksProvider.rawKeys, Harmless]
      by_cases hlist : ∃ raws, Dict.get? fields "keys" = some (.list raws)
      · obtain ⟨raws, hraws⟩ := hlist
        simp only [hraws]
        constructor
        · rintro (h | ⟨_, heq, hstumbles⟩) hharmless
          · exact not_escapes_ok _ h
          · cases heq
            exact hharmless raws rfl hstumbles
        · intro h
          refine .inr ⟨raws, rfl, by_contra fun hstumbles => h fun raws' heq => ?_⟩
          cases heq
          exact hstumbles
      · refine iff_of_false ?_ (not_not.2 fun raws h => absurd ⟨raws, h⟩ hlist)
        split
        · exact absurd ⟨_, by assumption⟩ hlist
        · rintro (h | ⟨_, heq, -⟩)
          · exact not_escapes_unavailable _ h
          · cases heq
    | _ =>
      refine iff_of_false ?_ (not_not.2 trivial)
      rintro (h | ⟨_, heq, -⟩)
      · exact not_escapes_unavailable _ h
      · cases heq

/-- The body of a response from a secure URL. -/
theorem body_eq_ok {geturl : Option String} {raw : List UInt8}
    (hsecure : isSecure p.allowHttp (geturl.getD p.jwksUrl) = true) :
    p.body (.ok ⟨geturl, .ok raw⟩) = .ok raw := by
  show (raiseIf (isSecure p.allowHttp (geturl.getD p.jwksUrl) = false) _ >>= _) = _
  rw [raiseIf_bind, if_neg (by rw [hsecure]; decide)]
  rfl

/-- **What a body lets out**, once it has been read. -/
theorem refresh_escapes_iff {now : ℚ} {raw : List UInt8} (hbody : p.body opened = .ok raw) :
    Escapes (p.refresh crypto conv now opened) ↔ ¬ Harmless crypto (conv.loads raw) := by
  have hdocument : p.document conv opened =
      (conv.loads raw).mapError raisedByLoads >>= RemoteJwksProvider.rawKeys := by
    rw [RemoteJwksProvider.document, hbody]
    rfl
  rw [RemoteJwksProvider.refresh, escapes_bind, hdocument, ← loads_escapes_iff]
  refine or_congr_right (exists_congr fun raws => and_congr_right fun _ => ?_)
  rw [escapes_bind, collect_escapes_iff]
  exact or_iff_left fun ⟨_, _, h⟩ => not_escapes_ok _ h

/-- **Failures of the key set are contained** unless the body is one that `json.loads` refuses
with another exception, or that lists an RSA key without a name where the loop comes to it. -/
theorem getKey_contained_iff (crypto : Cryptography) (conv : Conversions) (p : RemoteJwksProvider)
    (now : ℚ) (keyId : String) (geturl : Option String) (body : List UInt8) :
    Contained keyId (p.getKey crypto conv ⟨now, keyId, .ok ⟨geturl, .ok body⟩⟩).1 ↔
      (p.documentExpiresAt ≤ now → isSecure p.allowHttp (geturl.getD p.jwksUrl) = true →
        Harmless crypto (conv.loads body)) := by
  refine (contained_iff fun key => getKey_keyId).trans ?_
  rw [getKey_escapes_iff, not_and]
  refine imp_congr_right fun _ => ?_
  cases hsecure : isSecure p.allowHttp (geturl.getD p.jwksUrl) with
  | false =>
    refine iff_of_true ?_ (fun h => by cases h)
    have hbody : p.body (.ok ⟨geturl, .ok body⟩) =
        .error (unavailable "JWKS endpoint redirected to a non-HTTPS URL") := by
      show (raiseIf (isSecure p.allowHttp (geturl.getD p.jwksUrl) = false) _ >>= _) = _
      rw [raiseIf_bind, if_pos hsecure]
    rw [RemoteJwksProvider.refresh, RemoteJwksProvider.document, hbody]
    exact not_escapes_unavailable _
  | true =>
    rw [refresh_escapes_iff (body_eq_ok hsecure), not_not]
    exact ⟨fun h _ => h, fun h => h rfl⟩

end

/-! ### A key without a name -/

/-- The base64 of `2 ^ 2048 - 1`. -/
def sampleModulus : String := String.ofList (List.replicate 341 '_' ++ ['w'])

def samplePem : String :=
  "-----BEGIN PUBLIC KEY-----\nMIIBIjANBgkqhkiG9w0BAQEFAAOCAQ8AMIIBCgKCAQEA" ++
    String.ofList (List.replicate 20 '/' ++ ['\n'] ++
      (List.replicate 5 (List.replicate 64 '/' ++ ['\n'])).flatten) ++
    "/wIDAQAB\n-----END PUBLIC KEY-----\n"

/-- One key, of the modulus `2 ^ 2048 - 1` and the exponent 65537. -/
def sampleCryptography : Cryptography where
  base64urlDecode text :=
    if text = sampleModulus then .ok (List.replicate 256 255)
    else if text = "AQAB" then .ok [1, 0, 1]
    else .error .valueError
  PublicKey := Unit
  publicKey exponent modulus :=
    if exponent = 65537 ∧ modulus = 2 ^ 2048 - 1 then .ok () else .error .valueError
  publicBytes _ := samplePem.toUTF8.data.toList
  publicBytes_ne _ := by decide +kernel

def sampleKey (kid : String) : JsonValue :=
  .obj [("kid", .str kid), ("alg", .str "RS256"), ("kty", .str "RSA"), ("n", .str sampleModulus),
    ("e", .str "AQAB")]

/-- A document with one key. -/
def sampleBody (kid : String) : List UInt8 :=
  ("\x7b\"keys\":[\x7b\"kid\":\"" ++ kid ++ "\",\"alg\":\"RS256\",\"kty\":\"RSA\",\"n\":\"" ++
    sampleModulus ++ "\",\"e\":\"AQAB\"\x7d]\x7d").toUTF8.data.toList

/-- Conversions that read this document. -/
def sampleConversions (kid : String) : Conversions :=
  { plainConversions with
    loads := fun raw => if raw = sampleBody kid then .ok (.obj [("keys", .list [sampleKey kid])])
      else .error .jsonDecodeError
    loads_raises := by
      intro raw e h
      split at h
      · cases h
      · cases h
        exact .inr (.inl rfl) }

def sampleProvider : RemoteJwksProvider where
  jwksUrl := "https://idp.example/keys"
  allowHttp := false
  cacheTtlSeconds := 300
  valid := ⟨by decide, by decide +kernel, by decide +kernel⟩

theorem sampleKey_publicKey (kid : String) : RsaJwk.publicKey sampleCryptography
    ⟨kid, "RS256", sampleModulus, "AQAB"⟩ = .ok () := by
  have hother : ("AQAB" : String) ≠ sampleModulus := by decide +kernel
  have hmodulus : intFromBytes (List.replicate 256 255) = 2 ^ 2048 - 1 := by decide +kernel
  have hexponent : intFromBytes [1, 0, 1] = 65537 := by decide +kernel
  simp only [RsaJwk.publicKey, sampleCryptography, if_neg hother, if_true, hmodulus, hexponent,
    and_self, ok_bind]

/-- What the provider reads from the document. -/
theorem document_sample (kid : String) :
    sampleProvider.document (sampleConversions kid) (.ok ⟨none, .ok (sampleBody kid)⟩) =
      .ok [sampleKey kid] := by
  have hsecure : isSecure false "https://idp.example/keys" = true := by decide
  have hbody : sampleProvider.body (.ok ⟨none, .ok (sampleBody kid)⟩) = .ok (sampleBody kid) :=
    body_eq_ok hsecure
  have hloads : (sampleConversions kid).loads (sampleBody kid) =
      .ok (.obj [("keys", .list [sampleKey kid])]) := if_pos rfl
  rw [RemoteJwksProvider.document, hbody, ok_bind, hloads]
  rfl

/-- **A key without an identifier** raises the `ValueError` of its constructor. -/
theorem blank_key_escapes :
    (sampleProvider.getKey sampleCryptography (sampleConversions "")
      ⟨0, "current", .ok ⟨none, .ok (sampleBody "")⟩⟩).1 =
        .error (.valueError "verification key fields are required") ∧
    ¬ Contained "current" (sampleProvider.getKey sampleCryptography (sampleConversions "")
      ⟨0, "current", .ok ⟨none, .ok (sampleBody "")⟩⟩).1 := by
  have hparse : parseRsaJwk sampleCryptography (sampleKey "") =
      .error (.valueError "verification key fields are required") := by
    have hjwk : rsaJwk (sampleKey "") = some ⟨"", "RS256", sampleModulus, "AQAB"⟩ := rfl
    simp only [parseRsaJwk, hjwk, sampleKey_publicKey]
    rfl
  have hrefresh : sampleProvider.refresh sampleCryptography (sampleConversions "") 0
      (.ok ⟨none, .ok (sampleBody "")⟩) =
        .error (.valueError "verification key fields are required") := by
    rw [RemoteJwksProvider.refresh, document_sample, ok_bind, collect, hparse]
    rfl
  have hexpired : sampleProvider.documentExpiresAt ≤ 0 := le_refl _
  have hresult : (sampleProvider.getKey sampleCryptography (sampleConversions "")
      ⟨0, "current", .ok ⟨none, .ok (sampleBody "")⟩⟩).1 =
        .error (.valueError "verification key fields are required") := by
    rw [RemoteJwksProvider.getKey, if_pos hexpired, hrefresh]
  rw [hresult]
  exact ⟨rfl, fun h => by cases h⟩

end Jwks

end AegisPlatform
