import AuthnKit.Foundation.Base64
import AuthnKit.Foundation.FormUrlencoded
import AuthnKit.Foundation.Table
import AuthnKit.Foundation.Text
import AuthnKit.Oidc.Provider
import AuthnKit.Oidc.Session

/-!
# AuthnKit — the authorization-code login flow

`src/oidc/login.rs`. `LoginFlow.authorize` begins a login and `LoginFlow.complete` ends it at the
provider's callback; in between, what binds the two travels in the protection cookie. The JSON of
that cookie and the OIDC library are parameters, and what is drawn at random is an operation.
-/

namespace AuthnKit

/-! ## Where a login may lead -/

/-- Whether `url` sits under `origin`, on an origin boundary. -/
def isWithinOrigin (url origin : String) : Bool :=
  match Text.stripPrefix (Text.trimEndMatches '/' origin) url with
  | some rest =>
    rest == "" || Text.startsWith "/" rest || Text.startsWith "?" rest || Text.startsWith "#" rest
  | none => false

/-- Where a user may be sent after a successful login. -/
inductive RedirectPolicy where
  /-- Only same-origin paths. -/
  | relativeOnly
  /-- Same-origin paths, and absolute URLs whose origin is listed. -/
  | allowlist (origins : List String)
  deriving DecidableEq

namespace RedirectPolicy

def rejected (destination reason : String) : Except AuthError Unit :=
  .error (.malformedCredential
    ("rejected login redirect " ++ Text.debug destination ++ ": " ++ reason))

def validate (policy : RedirectPolicy) (destination : String) : Except AuthError Unit :=
  if destination.toList.any Text.isControl then
    rejected destination "contains a control character"
  else if Text.startsWith "/" destination then
    if Text.startsWith "//" destination || Text.startsWith "/\\" destination then
      rejected destination "protocol-relative url"
    else .ok ()
  else match policy with
    | relativeOnly => rejected destination "only relative paths are permitted"
    | allowlist origins =>
      if origins.any (isWithinOrigin destination) then .ok ()
      else rejected destination "origin is not allow-listed"

end RedirectPolicy

/-! ## The protection cookie

The secrets of an attempt travel with the browser, as JSON in Base64. Nothing is kept by the
service, so what the cookie says is all a callback is compared with. -/

/-- The single-use secrets binding one authorization request to its callback. -/
structure ProtectionData where
  csrf : String
  nonce : String
  /-- Absent when PKCE is disabled. -/
  pkceVerifier : Option String
  /-- Where to send the user once the login completes. -/
  destination : String
  deriving DecidableEq

/-- The JSON of `ProtectionData` as serde derives it, and the text of a base64 error. -/
structure ProtectionSerde where
  toVec : ProtectionData → Except String (List UInt8)
  fromSlice : List UInt8 → Except String ProtectionData
  decodeError : String → String

/-- What is serialised is deserialised again. -/
def ProtectionSerde.RoundTrips (serde : ProtectionSerde) : Prop :=
  ∀ p json, serde.toVec p = .ok json → serde.fromSlice json = .ok p

namespace ProtectionData

/-- The opaque value carried in the protection cookie. -/
def encode (serde : ProtectionSerde) (p : ProtectionData) : Except AuthError String :=
  match serde.toVec p with
  | .ok json => .ok (Base64.encode .urlSafe json)
  | .error e => .error (.internal ("could not serialise protection data: " ++ e))

def decode (serde : ProtectionSerde) (raw : String) : Except AuthError ProtectionData :=
  match Base64.decode .urlSafe raw with
  | some json => match serde.fromSlice json with
    | .ok p => .ok p
    | .error e => .error (.unauthenticated ("bad protection cookie payload: " ++ e))
  | none => .error (.unauthenticated ("bad protection cookie: " ++ serde.decodeError raw))

/-- **Protection data survives its encoding**, through JSON and Base64, where the serialiser reads
what it writes. -/
theorem decode_of_encode {serde : ProtectionSerde} (hserde : serde.RoundTrips)
    {p : ProtectionData} {raw : String} (h : p.encode serde = .ok raw) :
    decode serde raw = .ok p := by
  unfold encode at h
  cases hjson : serde.toVec p with
  | error e =>
    rw [hjson] at h
    cases h
  | ok json =>
    rw [hjson] at h
    obtain rfl := (Except.ok.inj h).symm
    unfold decode
    simp only [Base64.decode_encode, hserde p json hjson]

end ProtectionData

/-! ## The callback

The query string of a callback is read parameter by parameter, so that what counts of a repeated one
is the last. -/

/-- The provider's callback, parsed from the query string. -/
inductive CallbackParams where
  | success (code state : String)
  /-- An error response. -/
  | failure (error : String) (description : Option String)
  deriving DecidableEq

structure CallbackFields where
  code : Option String := none
  state : Option String := none
  error : Option String := none
  description : Option String := none

/-- A repeated parameter replaces the earlier one. -/
def CallbackFields.add (fields : CallbackFields) (pair : String × String) : CallbackFields :=
  if pair.1 = "code" then { fields with code := some pair.2 }
  else if pair.1 = "state" then { fields with state := some pair.2 }
  else if pair.1 = "error" then { fields with error := some pair.2 }
  else if pair.1 = "error_description" then { fields with description := some pair.2 }
  else fields

/-- The parameters of a callback query string, in order. -/
def queryPairs (query : String) : List (String × String) :=
  FormUrlencoded.parse query.toUTF8.data.toList

namespace CallbackParams

def fromQuery (query : String) : Except AuthError CallbackParams :=
  let fields := (queryPairs query).foldl CallbackFields.add {}
  match fields.error with
  -- an error counts even beside a code
  | some error => .ok (.failure error fields.description)
  | none => match fields.code, fields.state with
    | some code, some state => .ok (.success code state)
    | _, _ => .error (.malformedCredential
        "callback carried neither an authorization code nor an error")

/-- What the loop over the parameters leaves: the last value of each of the four. Induction from the
last parameter on. -/
theorem foldl_add (pairs : List (String × String)) :
    pairs.foldl CallbackFields.add {} =
      ⟨Table.lastValue "code" pairs, Table.lastValue "state" pairs, Table.lastValue "error" pairs,
        Table.lastValue "error_description" pairs⟩ := by
  induction pairs using List.reverseRecOn with
  | nil => rfl
  | append_singleton pairs pair ih =>
    simp only [List.foldl_append, List.foldl_cons, List.foldl_nil, ih, Table.lastValue_concat,
      CallbackFields.add]
    by_cases hcode : pair.1 = "code"
    · simp [hcode]
    · by_cases hstate : pair.1 = "state"
      · simp [hstate]
      · by_cases herror : pair.1 = "error"
        · simp [herror]
        · by_cases hdescription : pair.1 = "error_description"
          · simp [hdescription]
          · simp [hcode, hstate, herror, hdescription]

/-- **A callback succeeds when it carries a code, a state and no error**, anywhere; of a repeated
parameter the last one counts. -/
theorem fromQuery_eq_success_iff {query code state : String} :
    fromQuery query = .ok (.success code state)
      ↔ (∀ pair ∈ queryPairs query, pair.1 ≠ "error")
        ∧ Table.lastValue "code" (queryPairs query) = some code
        ∧ Table.lastValue "state" (queryPairs query) = some state := by
  unfold fromQuery
  rw [foldl_add, ← Table.lastValue_eq_none_iff]
  simp only
  cases herror : Table.lastValue "error" (queryPairs query) with
  | some error => simp
  | none =>
    cases Table.lastValue "code" (queryPairs query) with
    | none => simp
    | some code' =>
      cases Table.lastValue "state" (queryPairs query) with
      | none => simp
      | some state' => simp

end CallbackParams

/-! ## The flow

Beginning and completing a login, as the source has them, over whatever draws random texts and
whatever answers for the provider. -/

/-- What to send the browser to begin a login. -/
structure AuthorizationRedirect where
  location : String
  /-- The protection cookie, and a clear of any stale session. -/
  cookies : List CookieDirective

structure LoginComplete where
  claims : IdentityClaims
  /-- Where to send the browser next. -/
  redirectTo : String
  /-- The new session, and a clear of the spent protection cookie. -/
  cookies : List CookieDirective

/-- What beginning a login draws at random. -/
structure LoginOps (m : Type → Type) where
  /-- A PKCE challenge and its verifier. -/
  newRandomSha256 : m (String × String)
  csrfNewRandom : m String
  nonceNewRandom : m String

/-- Drives the authorization-code flow. -/
structure LoginFlow (m : Type → Type) where
  provider : ProviderHandle m
  ops : LoginOps m
  serde : ProtectionSerde
  codec : SessionCodec
  session : CookieSettings
  protection : CookieSettings
  redirectPolicy : RedirectPolicy

namespace LoginFlow

variable {m : Type → Type}

def withCodec (provider : ProviderHandle m) (ops : LoginOps m) (serde : ProtectionSerde)
    (codec : SessionCodec) : LoginFlow m where
  provider := provider
  ops := ops
  serde := serde
  codec := codec
  session := .ofSession "session"
  protection := .ofProtection "authn_protection"
  redirectPolicy := .relativeOnly

/-- A flow storing the ID token directly in the session cookie. -/
def new (provider : ProviderHandle m) (ops : LoginOps m) (serde : ProtectionSerde) :
    LoginFlow m :=
  withCodec provider ops serde idTokenCodec

def withSessionCookie (f : LoginFlow m) (settings : CookieSettings) : LoginFlow m :=
  { f with session := settings }

def withProtectionCookie (f : LoginFlow m) (settings : CookieSettings) : LoginFlow m :=
  { f with protection := settings }

def withRedirectPolicy (f : LoginFlow m) (policy : RedirectPolicy) : LoginFlow m :=
  { f with redirectPolicy := policy }

variable [Monad m]

/-- Begins a login, sending the user to the provider. -/
def authorize (f : LoginFlow m) (destination : String) :
    ExceptT AuthError m AuthorizationRedirect := do
  -- a bad destination fails before anything is drawn
  ExceptT.mk (pure (f.redirectPolicy.validate destination))
  let state ← f.provider.snapshot
  let pkce ← if f.provider.config.usePkce then some <$> f.ops.newRandomSha256 else pure none
  let csrf ← f.ops.csrfNewRandom
  let nonce ← f.ops.nonceNewRandom
  let request : AuthorizationRequest :=
    { client := state.client
      state := csrf
      nonce := nonce
      scopes := f.provider.config.scopes
      pkceChallenge := pkce.map (·.1) }
  let protection : ProtectionData :=
    { csrf := csrf
      nonce := nonce
      pkceVerifier := pkce.map (·.2)
      destination := destination }
  let value ← ExceptT.mk (pure (protection.encode f.serde))
  return {
    location := f.provider.lib.authorizeUrl request
    -- the stale session goes before a new login starts
    cookies := [f.protection.set value, f.session.clear] }

/-- What an error response of the provider becomes. -/
def callbackFailure (error : String) (description : Option String) : AuthError :=
  let detail := description.getD error
  if error = "access_denied" then .unauthenticated ("user declined sign-in: " ++ detail)
  else .upstream ("provider reported " ++ error ++ " during sign-in: " ++ detail)

def complete (f : LoginFlow m) (callback : CallbackParams) (protectionCookie : Option String) :
    ExceptT AuthError m LoginComplete := do
  match callback with
  | .failure error description => throw (callbackFailure error description)
  | .success code returnedState =>
    let some raw := protectionCookie | throw (.unauthenticated "protection cookie is missing")
    let protection ← ExceptT.mk (pure (ProtectionData.decode f.serde raw))
    -- the state is checked before the code leaves for the token endpoint
    if returnedState ≠ protection.csrf then
      throw (.unauthenticated "callback state does not match the protection cookie")
    let state ← f.provider.snapshot
    let request ← ExceptT.mk (pure
      (state.client.exchange f.provider.lib (.authorizationCode code)))
    match ← f.provider.requestAsync { request with pkceVerifier := protection.pkceVerifier } with
    -- an error carries no directive, so the protection cookie stays with the browser
    | .error e => throw e.toAuthError
    | .ok response =>
      let some idToken := response.idToken
        | throw (.upstream "token response carried no id_token")
      let claims ← f.provider.verifyIdToken idToken.text (.matches protection.nonce)
      let value ← ExceptT.mk (pure (f.codec.encode ⟨idToken.text, claims.expiresAt⟩))
      return {
        claims := claims
        redirectTo := protection.destination
        -- the protection cookie is single-use
        cookies := [f.session.set value, f.protection.clear] }

end LoginFlow

end AuthnKit
