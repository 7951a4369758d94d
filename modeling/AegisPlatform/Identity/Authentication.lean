import AegisPlatform.Identity.Authorization
import AegisPlatform.Identity.Jwks

/-!
# Authentication

From the header of a request to a principal: `AuthenticationService.authenticate`.

* `Jwt` — the library that decodes tokens, taken as it comes.
* `verifiedClaims`, `JwtVerifier.verify` — which claims a token is good for.
* `IdentityRecord`, `InMemoryIdentityDirectory` — whom a subject stands for.
* `authenticate`, `authenticate_spec` — the code, and what a principal rests on.
-/

namespace AegisPlatform

open Fallible

/-! ## Errors -/

/-- What `authenticate` may raise. -/
inductive AuthRaised where
  | authenticationError (error : AuthenticationError)
  | raised (e : Raised)
  /-- Any other exception. -/
  | other
  deriving DecidableEq, Repr

namespace AuthRaised

/-- `AuthenticationError(code, message)`. -/
def of (code : AuthenticationErrorCode) (message : String) : AuthRaised :=
  .authenticationError ⟨code, message⟩

/-- What `get_key` raises, as it is passed on. -/
def ofJwks : JwksRaised → AuthRaised
  | .authenticationError error => .authenticationError error
  | .valueError message => .raised (.valueError message)
  | _ => .other

end AuthRaised

/-- The stored name of a code. -/
def AuthenticationErrorCode.value : AuthenticationErrorCode → String
  | missingToken => "missing_token"
  | malformedToken => "malformed_token"
  | expiredToken => "expired_token"
  | wrongIssuer => "wrong_issuer"
  | wrongAudience => "wrong_audience"
  | invalidSignature => "invalid_signature"
  | unsupportedAlgorithm => "unsupported_algorithm"
  | signingKeyUnavailable => "signing_key_unavailable"
  | invalidClaims => "invalid_claims"
  | unknownIdentity => "unknown_identity"
  | tenantMismatch => "tenant_mismatch"
  | identityDisabled => "identity_disabled"

/-! ## Tokens -/

/-- The exceptions of the library. -/
inductive JwtError where
  | expiredSignature
  | invalidIssuer
  | invalidAudience
  | invalidSignature
  /-- Any other `InvalidTokenError`. -/
  | invalidToken
  | typeError
  | overflowError
  /-- Any other exception. -/
  | other
  deriving DecidableEq, Repr

/-- Is it caught by `except InvalidTokenError`? -/
def JwtError.isInvalidTokenError : JwtError → Bool
  | expiredSignature | invalidIssuer | invalidAudience | invalidSignature | invalidToken => true
  | _ => false

/-- The arguments of `jwt.decode`. -/
structure DecodeCall where
  token : String
  key : List UInt8
  algorithms : List String
  audience : String
  issuer : String
  /-- In microseconds. -/
  leeway : ℤ
  require : List String

/-- The library, and the reading of a float as an instant. -/
structure Jwt where
  getUnverifiedHeader : String → Except JwtError Dict
  /-- `jwt.decode`, at a moment. -/
  decode : Timestamp → DecodeCall → Except JwtError Dict
  /-- `datetime.fromtimestamp(value, UTC)` of a float, or an exception. -/
  fromFloat : BitVec 64 → Option Timestamp

structure JwtValidationConfig where
  issuer : String
  audience : String
  clockSkew : ℤ := seconds 30
  algorithms : List String := ["RS256"]
  valid : issuer ≠ "" ∧ audience ≠ "" ∧ (0 ≤ clockSkew ∧ clockSkew ≤ seconds 300) ∧ algorithms ≠ []

/-- The claims of a token that are relied on. -/
structure VerifiedClaims where
  issuer : String
  subject : String
  audiences : List String
  expiresAt : Timestamp
  issuedAt : Timestamp
  assertedTenantId : Option TenantId
  authorizedParty : Option String

namespace JwtVerifier

/-- `isinstance(value, (int, float))`; booleans are integers. -/
def isNumber : JsonValue → Bool
  | .bool _ | .int _ | .float _ => true
  | _ => false

def invalidClaims (message : String) : AuthRaised := .of .invalidClaims message

/-- The claims that have to be there: subject, issuer, expiry and time of issue. -/
def requiredClaims (payload : Dict) :
    Except AuthRaised (String × String × JsonValue × JsonValue) :=
  match payload.get? "sub", payload.get? "iss", payload.get? "exp", payload.get? "iat" with
  | some (.str subject), some (.str issuer), some expiresAt, some issuedAt =>
    if subject ≠ "" ∧ isNumber expiresAt = true ∧ isNumber issuedAt = true then
      .ok (subject, issuer, expiresAt, issuedAt)
    else .error (invalidClaims "required token claims have invalid types")
  | _, _, _, _ => .error (invalidClaims "required token claims have invalid types")

/-- The text, if the value is one. -/
def text? : JsonValue → Option String
  | .str text => some text
  | _ => none

/-- The audiences of a claim that is there. -/
def audiences (claim : Option JsonValue) : Except AuthRaised (List String) :=
  orRaise (invalidClaims "audience claim has an invalid type") <|
    match claim with
    | some (.str audience) => some [audience]
    | some (.list items) => items.mapM text?
    | _ => none

/-- The tenant of a claim; a claim may be absent, but not null. -/
def assertedTenant : Option JsonValue → Except AuthRaised (Option TenantId)
  | none => .ok none
  | some (.str raw) =>
    ((TenantId.make raw).map some).mapError fun _ =>
      invalidClaims "tenant claim has an invalid value"
  | some _ => .error (invalidClaims "tenant claim has an invalid type")

def authorizedParty : Option JsonValue → Except AuthRaised (Option String)
  | none | some .null => .ok none
  | some (.str party) => .ok (some party)
  | some _ => .error (invalidClaims "authorized party claim has an invalid type")

section

variable (jwt : Jwt)

/-- `datetime.fromtimestamp(value, UTC)`, in the years from 1 to 9999. -/
def fromtimestamp : JsonValue → Option Timestamp
  | .bool b => some (if b then seconds 1 else 0)
  | .int n => if -62135596800 ≤ n ∧ n ≤ 253402300799 then some (seconds n) else none
  | .float bits => jwt.fromFloat bits
  | _ => none

/-- `_numeric_date`. -/
def numericDate (value : JsonValue) (claimName : String) : Except AuthRaised Timestamp :=
  orRaise (invalidClaims (claimName ++ " claim has an invalid value")) (fromtimestamp jwt value)

/-- `_verified_claims`. -/
def verifiedClaims (payload : Dict) : Except AuthRaised VerifiedClaims := do
  let (subject, issuer, expiresAt, issuedAt) ← requiredClaims payload
  let audiences ← audiences (payload.get? "aud")
  let assertedTenantId ← assertedTenant (payload.get? "tenant_id")
  let authorizedParty ← authorizedParty (payload.get? "azp")
  let expiresAt ← numericDate jwt expiresAt "exp"
  let issuedAt ← numericDate jwt issuedAt "iat"
  return ⟨issuer, subject, audiences, expiresAt, issuedAt, assertedTenantId, authorizedParty⟩

/-- What comes of an exception of `jwt.decode`. -/
def raisedByDecode : JwtError → AuthRaised
  | .expiredSignature => .of .expiredToken "bearer token has expired"
  | .invalidIssuer => .of .wrongIssuer "bearer token issuer is not trusted"
  | .invalidAudience => .of .wrongAudience "bearer token audience is not accepted"
  | .invalidSignature => .of .invalidSignature "bearer token signature is invalid"
  | .invalidToken | .typeError | .overflowError =>
    invalidClaims "bearer token claims are invalid"
  | .other => .other

variable (config : JwtValidationConfig) (getKey : String → Except JwksRaised VerificationKey)
  (now : Timestamp)

/-- How a token is decoded under a key. -/
def decodeCall (token : String) (key : VerificationKey) : DecodeCall where
  token := token
  key := key.pem
  algorithms := config.algorithms
  audience := config.audience
  issuer := config.issuer
  leeway := config.clockSkew
  require := ["aud", "exp", "iat", "iss", "sub"]

/-- `verify`. -/
def verify (token : String) : Except AuthRaised VerifiedClaims := do
  raiseIf (token = "") (.of .missingToken "bearer token is required")
  let header ← (jwt.getUnverifiedHeader token).mapError fun e =>
    if e.isInvalidTokenError then .of .malformedToken "bearer token is malformed" else .other
  let algorithm ← orRaise
    (.of .unsupportedAlgorithm "token signing algorithm is not allowed")
    ((JsonValue.text? header "alg").filter fun algorithm => algorithm ∈ config.algorithms)
  let keyId ← orRaise (.of .malformedToken "token does not identify a signing key")
    ((JsonValue.text? header "kid").filter fun keyId => keyId ≠ "")
  let key ← (getKey keyId).mapError AuthRaised.ofJwks
  raiseIf (key.algorithm ≠ algorithm)
    (.of .unsupportedAlgorithm "token and signing key algorithms do not match")
  let payload ← (jwt.decode now (decodeCall config token key)).mapError raisedByDecode
  verifiedClaims jwt payload

end

end JwtVerifier

/-! ## Directories -/

/-- Whom a subject of an issuer stands for. -/
structure IdentityRecord where
  issuer : String
  subject : String
  tenantId : TenantId
  kind : PrincipalKind
  roleBindings : List RoleBinding
  enabled : Bool := true
  userId : Option UserId := none
  serviceIdentity : Option ServiceIdentity := none
  valid : issuer ≠ "" ∧ subject ≠ "" ∧ userId.isSome ≠ serviceIdentity.isSome ∧
    (kind = .user → userId.isSome = true) ∧ (kind = .service → serviceIdentity.isSome = true) ∧
    ∀ b ∈ roleBindings, b.tenantId = tenantId

/-- `Principal(…)` of a record's fields; only the subject can still be refused. -/
def IdentityRecord.toPrincipal (record : IdentityRecord) : Except AuthRaised Principal :=
  if h : isIdentifier record.subject = true then
    .ok {
      subject := record.subject
      issuer := record.issuer
      tenantId := record.tenantId
      kind := record.kind
      roleBindings := record.roleBindings
      userId := record.userId
      serviceIdentity := record.serviceIdentity
      valid := ⟨h, record.valid.1, record.valid.2.2⟩ }
  else .error (.raised (.valueError "subject must be a non-empty normalized identifier"))

/-- What a directory makes of claims. -/
abbrev IdentityDirectory := VerifiedClaims → Except AuthRaised Principal

/-- A directory has one record of a subject. -/
structure InMemoryIdentityDirectory where
  records : List IdentityRecord
  nodup : (records.map fun record => (record.issuer, record.subject)).Nodup

namespace InMemoryIdentityDirectory

/-- `InMemoryIdentityDirectory(records)`. -/
def make (records : List IdentityRecord) : Except Raised InMemoryIdentityDirectory :=
  if h : (records.map fun record => (record.issuer, record.subject)).Nodup then .ok ⟨records, h⟩
  else .error (.valueError "duplicate identity records are not allowed")

/-- `self._records[(issuer, subject)]`. -/
def get? (d : InMemoryIdentityDirectory) (issuer subject : String) : Option IdentityRecord :=
  d.records.find? fun record => record.issuer = issuer ∧ record.subject = subject

/-- `resolve`. -/
def resolve (d : InMemoryIdentityDirectory) : IdentityDirectory := fun claims => do
  let record ← orRaise (.of .unknownIdentity "verified subject is not registered")
    (d.get? claims.issuer claims.subject)
  raiseIf (record.enabled = false) (.of .identityDisabled "identity is disabled")
  raiseIf (∃ tenantId ∈ claims.assertedTenantId, tenantId ≠ record.tenantId)
    (.of .tenantMismatch "signed tenant claim does not match the identity record")
  record.toPrincipal

/-- The record a principal was made from. -/
theorem resolve_spec {d : InMemoryIdentityDirectory} {claims : VerifiedClaims}
    {principal : Principal} (h : d.resolve claims = .ok principal) :
    ∃ record ∈ d.records, record.issuer = claims.issuer ∧ record.subject = claims.subject ∧
      record.enabled = true ∧ (∀ tenantId ∈ claims.assertedTenantId, tenantId = record.tenantId) ∧
      principal.tenantId = record.tenantId ∧ principal.roleBindings = record.roleBindings ∧
      principal.issuer = record.issuer ∧ principal.subject = record.subject := by
  simp only [resolve, bind_eq_ok, orRaise_eq_ok, raiseIf_eq_ok] at h
  obtain ⟨record, hget, -, henabled, -, htenant, h⟩ := h
  rw [get?] at hget
  have hfound := List.find?_some hget
  obtain ⟨hissuer, hsubject⟩ := of_decide_eq_true hfound
  refine ⟨record, List.mem_of_find?_eq_some hget, hissuer, hsubject,
    Bool.eq_true_of_not_eq_false henabled, fun tenantId hmem => ?_, ?_⟩
  · by_contra hne
    exact htenant ⟨tenantId, hmem, hne⟩
  · rw [IdentityRecord.toPrincipal] at h
    split at h
    · cases h
      exact ⟨rfl, rfl, rfl, rfl⟩
    · cases h

end InMemoryIdentityDirectory

/-! ## The service -/

/-- `text.partition(" ")`, if there is a space. -/
def partitionSpace (text : String) : Option (String × String) :=
  match text.toList.dropWhile (· ≠ ' ') with
  | [] => none
  | _ :: rest => some (String.ofList (text.toList.takeWhile (· ≠ ' ')), String.ofList rest)

/-- The token of a header with the bearer scheme. -/
def bearerToken? (header : String) : Option String := do
  let (scheme, token) ← partitionSpace header
  if scheme.toList.map Char.toLower = "bearer".toList ∧ strip token ≠ "" then some (strip token)
  else none

/-- `AuthenticationService`, with its verifier and its directory as they are at a moment. -/
structure AuthenticationService where
  jwt : Jwt
  config : JwtValidationConfig
  getKey : String → Except JwksRaised VerificationKey
  now : Timestamp
  directory : IdentityDirectory

namespace AuthenticationService

variable (s : AuthenticationService)

/-- `authenticate`. -/
def authenticate (authorizationHeader : Option String) : Except AuthRaised Principal := do
  let header ← orRaise (.of .missingToken "authorization header is required") authorizationHeader
  let token ← orRaise
    (.of .malformedToken "authorization header must contain a bearer token") (bearerToken? header)
  let claims ← JwtVerifier.verify s.jwt s.config s.getKey s.now token
  s.directory claims

/-- A token that a trusted key vouches for, and the claims in it. -/
structure Vouched (token : String) (claims : VerifiedClaims) : Prop where
  keyed : ∃ header keyId key payload, s.jwt.getUnverifiedHeader token = .ok header ∧
    JsonValue.text? header "kid" = some keyId ∧ s.getKey keyId = .ok key ∧
    JsonValue.text? header "alg" = some key.algorithm ∧ key.algorithm ∈ s.config.algorithms ∧
    s.jwt.decode s.now (JwtVerifier.decodeCall s.config token key) = .ok payload ∧
    JwtVerifier.verifiedClaims s.jwt payload = .ok claims

variable {s} {token : String} {claims : VerifiedClaims} {principal : Principal}

theorem vouched_of_verify
    (h : JwtVerifier.verify s.jwt s.config s.getKey s.now token = .ok claims) :
    s.Vouched token claims := by
  simp only [JwtVerifier.verify, bind_eq_ok, raiseIf_eq_ok, orRaise_eq_ok, mapError_eq_ok,
    Option.filter_eq_some_iff, decide_eq_true_eq, ne_eq, not_not] at h
  obtain ⟨-, -, header, hheader, algorithm, ⟨halgorithm, hallowed⟩, keyId, ⟨hkeyId, -⟩, key, hkey,
    -, hsame, payload, hpayload, hclaims⟩ := h
  subst hsame
  exact ⟨header, keyId, key, payload, hheader, hkeyId, hkey, halgorithm, hallowed, hpayload,
    hclaims⟩

/-- **What a principal rests on**: a header with a bearer token, which a trusted key vouches for,
and the directory's word for the claims in it. -/
theorem authenticate_spec {header : Option String}
    (h : s.authenticate header = .ok principal) :
    ∃ text token claims, header = some text ∧ bearerToken? text = some token ∧
      s.Vouched token claims ∧ s.directory claims = .ok principal := by
  simp only [authenticate, bind_eq_ok, orRaise_eq_ok] at h
  obtain ⟨text, htext, token, htoken, claims, hverify, hresolve⟩ := h
  exact ⟨text, token, claims, htext, htoken, vouched_of_verify hverify, hresolve⟩

/-- The claims are those of the payload. -/
theorem issuer_of_verifiedClaims {jwt : Jwt} {payload : Dict}
    (h : JwtVerifier.verifiedClaims jwt payload = .ok claims) :
    payload.get? "iss" = some (.str claims.issuer) ∧
      payload.get? "sub" = some (.str claims.subject) ∧
      JwtVerifier.assertedTenant (payload.get? "tenant_id") = .ok claims.assertedTenantId := by
  simp only [JwtVerifier.verifiedClaims, bind_eq_ok, pure_eq_ok] at h
  obtain ⟨⟨subject, issuer, expiresAt, issuedAt⟩, hrequired, _, _, tenantId, htenant, _, _, _, _,
    _, _, rfl⟩ := h
  rw [JwtVerifier.requiredClaims] at hrequired
  split at hrequired
  · rename_i hsub hiss _ _
    split at hrequired
    · cases hrequired
      exact ⟨hiss, hsub, htenant⟩
    · cases hrequired
  · cases hrequired

end AuthenticationService

end AegisPlatform
