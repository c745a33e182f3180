import AuthnKit.Foundation.Prog
import AuthnKit.Core.Identity
import AuthnKit.Oidc.Error

/-!
# AuthnKit — the OIDC provider

`src/oidc/provider.rs`, with the configuration (`src/oidc/config.rs`) and the claim mapping
(`src/oidc/claims.rs`) it uses. The OIDC library is a parameter: its pure functions are
`OpenIdConnect`, and everything that reads a clock, a lock or the network is an operation of
`ProviderOps`, in an arbitrary monad of effects.

`ProviderHandle` is what the rest of the crate uses of a provider; `OidcProvider.handle` is the
one this module implements.
-/

namespace AuthnKit

/-- How an OIDC client identifies itself and what it asks for. -/
structure OidcConfig where
  issuerUrl : String
  clientId : String
  clientSecret : Option String := none
  redirectUrl : String
  scopes : List String := ["openid", "email", "profile"]
  minRefreshInterval : Duration := .fromSecs 30
  usePkce : Bool := true

/-- What discovery answers, as far as this crate looks at it. -/
structure ProviderMetadata where
  authorizationEndpoint : String
  tokenEndpoint : Option String
  introspectionEndpoint : Option String
  /-- The signing keys, opaque to this crate. -/
  jwks : List String

structure OidcClient where
  metadata : ProviderMetadata
  clientId : String
  clientSecret : Option String
  redirectUri : String

def buildClient (metadata : ProviderMetadata) (clientId : String) (clientSecret : Option String)
    (redirectUrl : String) : OidcClient :=
  ⟨metadata, clientId, clientSecret, redirectUrl⟩

/-- An immutable snapshot of everything discovery produced. -/
structure ProviderState where
  metadata : ProviderMetadata
  client : OidcClient
  fetchedAt : Instant

/-- A shared pointer: two are the same pointer when their addresses agree. -/
structure Arc (α : Type) where
  ptr : ℕ
  value : α

/-- How strictly the `nonce` claim is checked. -/
inductive NonceCheck where
  | matches (nonce : String)
  | present
  | skip

/-- The library's type of nonce checks: given the token's `nonce` claim, accept or explain. -/
abbrev NonceVerifier := Option String → Except String Unit

/-- A parsed ID token; it renders as the text it was parsed from. -/
structure IdToken where
  text : String

/-- The claims of a verified ID token. -/
structure IdTokenClaims where
  subject : String
  /-- Unix seconds. -/
  expiration : Int64
  email : Option String
  preferredUsername : Option String
  name : Option String
  nonce : Option String
  /-- The claim set serialised: the members, when it is an object. -/
  members : Option (List (String × JsonValue))

/-! ## The token endpoint -/

inductive Grant where
  | password (username password : String)
  | clientCredentials
  | authorizationCode (code : String)

structure TokenRequest where
  client : OidcClient
  grant : Grant
  scopes : List String := []
  pkceVerifier : Option String := none

structure TokenResponse where
  expiresIn : Option Duration
  idToken : Option IdToken

/-- What an authorization request asks of the provider. -/
structure AuthorizationRequest where
  client : OidcClient
  state : String
  nonce : String
  scopes : List String
  pkceChallenge : Option String

/-- The pure functions of the OIDC library. -/
structure OpenIdConnect where
  parseIdToken : String → Except String IdToken
  /-- `&Nonce` as a nonce check. -/
  nonceEquals : String → NonceVerifier
  /-- The error text of a client without a token endpoint. -/
  missingTokenUrl : String
  authorizeUrl : AuthorizationRequest → String

/-- `client.exchange_*`: fails when the provider advertises no token endpoint. -/
def OidcClient.exchange (lib : OpenIdConnect) (client : OidcClient) (grant : Grant) :
    Except AuthError TokenRequest :=
  match client.metadata.tokenEndpoint with
  | some _ => .ok { client := client, grant := grant }
  | none => .error (.internal ("provider advertises no token endpoint: " ++ lib.missingTokenUrl))

/-! ## Claims -/

/-- Unix seconds to wall-clock time, clamping a negative timestamp to the epoch. -/
def toSystemTime (unixSeconds : Int64) : SystemTime where
  nanos := max unixSeconds.toInt 0 * 1000000000
  le_nanos := by omega
  nanos_lt := by have := unixSeconds.toInt_lt; omega

def flattenClaims (claims : IdTokenClaims) : List (String × JsonValue) :=
  claims.members.getD []

/-- Converts verified ID-token claims into identity claims. -/
def identityFromIdTokenClaims (claims : IdTokenClaims) : IdentityClaims :=
  { (IdentityClaims.new .idToken |>.withSubject claims.subject
      |>.withExpiresAt (toSystemTime claims.expiration)) with
    email := claims.email
    preferredUsername := claims.preferredUsername
    name := claims.name
    extra := flattenClaims claims }

/-! ## The provider -/

/-- What a provider does besides computing. -/
structure ProviderOps (m : Type → Type) where
  /-- Clone the current snapshot out of its lock. -/
  read : m (Arc ProviderState)
  /-- Put a snapshot behind a new pointer. -/
  write : ProviderState → m Unit
  /-- Acquire and release `refresh_lock`. -/
  lock : m Unit
  unlock : m Unit
  instantNow : m Instant
  discoverAsync : String → m (Except DiscoveryError ProviderMetadata)
  /-- Verify a token with a client's keys. -/
  idTokenClaims :
    IdToken → OidcClient → NonceVerifier → m (Except ClaimsVerificationError IdTokenClaims)
  requestAsync : TokenRequest → m (Except RequestTokenError TokenResponse)

structure OidcProvider (m : Type → Type) where
  config : OidcConfig
  lib : OpenIdConnect
  ops : ProviderOps m

def requireNoncePresent : NonceVerifier
  | some _ => .ok ()
  | none => .error "missing nonce claim"

def skipNonceCheck : NonceVerifier := fun _ => .ok ()

/-- The library's check for each kind of nonce check. -/
def NonceCheck.verifier (lib : OpenIdConnect) : NonceCheck → NonceVerifier
  | «matches» expected => lib.nonceEquals expected
  | present => requireNoncePresent
  | skip => skipNonceCheck

namespace OidcProvider

variable {m : Type → Type} [Monad m]

def snapshot (p : OidcProvider m) : m (Arc ProviderState) := p.ops.read

def store (p : OidcProvider m) (state : ProviderState) : m Unit := p.ops.write state

def age (p : OidcProvider m) (state : ProviderState) : m Duration := do
  let now ← p.ops.instantNow
  return now.since state.fetchedAt

def fetchState (p : OidcProvider m) : ExceptT AuthError m ProviderState := do
  match ← p.ops.discoverAsync p.config.issuerUrl with
  | .error e => throw e.toAuthError
  | .ok metadata =>
    let client :=
      buildClient metadata p.config.clientId p.config.clientSecret p.config.redirectUrl
    let fetchedAt ← p.ops.instantNow
    return { metadata := metadata, client := client, fetchedAt := fetchedAt }

/-- What `refresh` does while it holds the lock. -/
def refreshLocked (p : OidcProvider m) (observed : Arc ProviderState) :
    ExceptT AuthError m Unit := do
  let current ← p.snapshot
  -- someone else stored a snapshot while this one waited
  if observed.ptr ≠ current.ptr then
    return ()
  if (← p.age current.value) < p.config.minRefreshInterval then
    return ()
  -- a failed fetch leaves before the store: the snapshot is kept
  let state ← p.fetchState
  p.store state

/-- Re-runs discovery and swaps in a client built from the fresh metadata. The guard is dropped
on every way out of the locked part. -/
def refresh (p : OidcProvider m) : ExceptT AuthError m Unit := do
  let observed ← p.snapshot
  if (← p.age observed.value) < p.config.minRefreshInterval then
    return ()
  p.ops.lock
  let result ← ExceptT.lift (p.refreshLocked observed).run
  p.ops.unlock
  ExceptT.mk (pure result)

def verify (p : OidcProvider m) (idToken : IdToken) (client : OidcClient) (nonce : NonceCheck) :
    m (Except ClaimsVerificationError IdTokenClaims) :=
  p.ops.idTokenClaims idToken client (nonce.verifier p.lib)

/-- Verifies an ID token; a failure that stale keys would explain is retried once, after a
refresh. -/
def verifyIdToken (p : OidcProvider m) (token : String) (nonce : NonceCheck) :
    ExceptT AuthError m IdentityClaims := do
  match p.lib.parseIdToken token with
  | .error e => throw (.invalidCredential ("malformed id token: " ++ e))
  | .ok idToken =>
    let state ← p.snapshot
    match ← p.verify idToken state.value.client nonce with
    | .ok claims => return identityFromIdTokenClaims claims
    | .error error =>
      -- fresh keys cannot change any other failure
      if !isPossiblyStaleKeys error then
        throw error.toAuthError
      p.refresh
      -- verified again whether or not the refresh fetched anything
      let state ← p.snapshot
      match ← p.verify idToken state.value.client nonce with
      | .ok claims => return identityFromIdTokenClaims claims
      | .error error => throw error.toAuthError

end OidcProvider

/-! ## What the mechanisms use of a provider -/

structure ProviderHandle (m : Type → Type) where
  config : OidcConfig
  lib : OpenIdConnect
  snapshot : m ProviderState
  verifyIdToken : String → NonceCheck → ExceptT AuthError m IdentityClaims
  requestAsync : TokenRequest → m (Except RequestTokenError TokenResponse)

/-- A client configured with another party's credentials. -/
def ProviderHandle.machineClient {m : Type → Type} [Monad m] (p : ProviderHandle m)
    (clientId clientSecret : String) : m OidcClient := do
  let state ← p.snapshot
  return buildClient state.metadata clientId (some clientSecret) p.config.redirectUrl

def OidcProvider.handle {m : Type → Type} [Monad m] (p : OidcProvider m) : ProviderHandle m where
  config := p.config
  lib := p.lib
  snapshot := do return (← p.snapshot).value
  verifyIdToken := p.verifyIdToken
  requestAsync := p.ops.requestAsync

end AuthnKit
