import AuthnKit.Foundation.Text
import AuthnKit.Foundation.Prog
import AuthnKit.Cache.Credential
import AuthnKit.Core.Chain

/-!
# AuthnKit — API-token authentication

`src/mechanisms/api_token.rs`: `Authorization: Bearer <prefix><key>`, against a configured list
and then, if there is one, a remote validator whose answers are cached.

The cache, the validator and the wall clock are effects of an arbitrary monad; a key that
matches no static token reaches them in the order cache, validator, clock, cache.
-/

namespace AuthnKit

variable {m : Type → Type} {U S : Type}

structure CacheHandle (m : Type → Type) (U : Type) where
  get : CacheKey → m (Option U)
  insert : CacheKey → U → Option Duration → m Unit

/-- What a mechanism reads of the process it runs in. -/
structure Platform (m : Type → Type) where
  blake3 : Blake3
  systemNow : m SystemTime

/-- Resolves an API key to claims, for a scope's discriminator, or explains why not. -/
structure TokenValidator (m : Type → Type) where
  name : String
  validate : String → Option String → ExceptT AuthError m IdentityClaims

/-- The application's conversion of claims, with the text a failure is reported under. -/
def principalFrom [Principal U] (what : String) (claims : IdentityClaims) : Except AuthError U :=
  match Principal.tryFrom claims with
  | .ok user => .ok user
  | .error e => .error (.internal (what ++ ": " ++ e))

/-- The conversion succeeds exactly when the application's does, with the same user; the text only
matters to its failures. -/
theorem principalFrom_eq_ok [Principal U] {what : String} {claims : IdentityClaims} {user : U} :
    principalFrom what claims = .ok user ↔ Principal.tryFrom claims = .ok user := by
  unfold principalFrom
  cases (Principal.tryFrom claims : Except String U) <;> simp

/-- A failed conversion is an internal error, so converting never redirects. -/
theorem stays_principalFrom [Principal U] (what : String) (claims : IdentityClaims) :
    AuthError.Stays (principalFrom what claims : Except AuthError U) := by
  unfold principalFrom
  cases (Principal.tryFrom claims : Except String U) with
  | ok user => exact AuthError.stays_ok user
  | error e => exact AuthError.stays_error_iff.mpr fun h => nomatch h

inductive StaticTokenError where
  | malformed (detail : String)
  | emptyPrefix
  | emptyToken (principal : String)
  deriving DecidableEq

/-- One entry of the configured token list. -/
structure StaticTokenSpec where
  token : String
  principal : String
  email : Option String := none
  scopes : Option (List String) := none

structure StaticToken where
  secret : String
  claims : IdentityClaims
  scopes : Option (Finset String)
  secret_ne : secret ≠ ""

namespace StaticToken

/-- Whether this token may be used for `scope`. -/
def permits (t : StaticToken) (scope : Option String) : Bool :=
  match t.scopes, scope with
  -- a token without a list is good everywhere
  | none, _ => true
  | some allowed, some scope => scope ∈ allowed
  -- a confined token has nothing to be compared with on a scope without a discriminator
  | some _, none => false

/-- Comparison of the bytes, after their number. -/
def isMatch (t : StaticToken) (candidate : String) : Bool :=
  t.secret.toUTF8.size == candidate.toUTF8.size && decide (t.secret.toUTF8 = candidate.toUTF8)

/-- **The comparison is equality of texts**: as many bytes, and the same ones. -/
@[simp] theorem isMatch_iff {t : StaticToken} {candidate : String} :
    t.isMatch candidate = true ↔ candidate = t.secret := by
  unfold isMatch
  rw [Bool.and_eq_true, beq_iff_eq, decide_eq_true_eq]
  constructor
  · rintro ⟨_, h⟩
    exact (String.toByteArray_inj.mp h).symm
  · rintro rfl
    exact ⟨rfl, rfl⟩

def ofSpec (spec : StaticTokenSpec) : Except StaticTokenError StaticToken :=
  if h : spec.token = "" then .error (.emptyToken spec.principal)
  else .ok
    { secret := spec.token
      claims := IdentityClaims.new .staticToken
        |>.withSubject spec.principal
        |>.withPreferredUsername spec.principal
        |>.withEmail (spec.email.getD spec.principal)
      scopes := spec.scopes.map List.toFinset
      secret_ne := h }

end StaticToken

structure ApiTokenAuthenticator (m : Type → Type) (U : Type) where
  keyPrefix : String
  tokens : List StaticToken
  fallback : Option (TokenValidator m)
  cache : CacheHandle m U
  maxCacheTtl : Duration
  keyPrefix_ne : keyPrefix ≠ ""

/-- The prefix of the examples is not empty, which is what a prefix has to be. -/
theorem sptok_ne_empty : "sptok_" ≠ "" := by decide

namespace ApiTokenAuthenticator

/-- Builds from the token list; every entry must carry a token. -/
def new (cache : CacheHandle m U) (keyPrefix : String) (specs : List StaticTokenSpec) :
    Except StaticTokenError (ApiTokenAuthenticator m U) :=
  if h : keyPrefix = "" then .error .emptyPrefix
  else do
    let tokens ← specs.mapM StaticToken.ofSpec
    return {
      keyPrefix := keyPrefix
      tokens := tokens
      fallback := none
      cache := cache
      maxCacheTtl := .fromSecs 300
      keyPrefix_ne := h }

def withFallback (a : ApiTokenAuthenticator m U) (validator : TokenValidator m) :
    ApiTokenAuthenticator m U :=
  { a with fallback := some validator }

def withMaxCacheTtl (a : ApiTokenAuthenticator m U) (ttl : Duration) :
    ApiTokenAuthenticator m U :=
  { a with maxCacheTtl := ttl }

/-- The key a bearer token carries for this authenticator. -/
def keyOf (a : ApiTokenAuthenticator m U) : Credential → Option String
  | .bearer token => Text.stripPrefix a.keyPrefix token
  | _ => none

/-- A credential carries a key exactly when it is a bearer token that starts with the prefix, and
the key is what follows it. -/
theorem keyOf_eq_some {a : ApiTokenAuthenticator m U} {c : Credential} {key : String} :
    a.keyOf c = some key ↔ c = .bearer (a.keyPrefix ++ key) := by
  cases c with
  | bearer token => simp [keyOf, Text.stripPrefix_eq_some]
  | _ => simp [keyOf]

/-- The static token a key authenticates as, if any. -/
def matched (a : ApiTokenAuthenticator m U) (scope : Option String) (key : String) :
    Option StaticToken :=
  a.tokens.find? fun candidate => candidate.permits scope && candidate.isMatch key

variable [Monad m]

/-- Time until `expiresAt`, capped at the configured maximum. -/
def cacheTtl (sys : Platform m) (a : ApiTokenAuthenticator m U) :
    Option SystemTime → m (Option Duration)
  | none => pure none
  | some expiresAt => do
    let now ← sys.systemNow
    return (expiresAt.durationSince now).map fun remaining => remaining.min a.maxCacheTtl

/-- What is done with a key that matches no static token. -/
def validateRemotely [Principal U] (sys : Platform m) (a : ApiTokenAuthenticator m U)
    (validator : TokenValidator m) (scope : Option String) (key : String) :
    ExceptT AuthError m U := do
  -- the key is all there is: the principal part of the cache key is empty
  let cacheKey := CredentialCache.key sys.blake3 scope validator.name "" key
  if let some user ← a.cache.get cacheKey then
    return user
  let claims ← validator.validate key scope
  -- the clock is read only after the validator has answered, and before the conversion
  let ttl ← (a.cacheTtl sys claims.expiresAt : m (Option Duration))
  let user ← ExceptT.mk (pure (principalFrom "api token principal could not be converted" claims))
  a.cache.insert cacheKey user ttl
  return user

/-- The principal of a key that carried the prefix. Without a validator a key on no list is a
bad API token, not something for a later authenticator. -/
def resolve [Principal U] (sys : Platform m) (a : ApiTokenAuthenticator m U)
    (scope : Option String) (key : String) : ExceptT AuthError m U :=
  match a.matched scope key, a.fallback with
  -- a static hit reads neither the cache nor the validator
  | some token, _ =>
    ExceptT.mk (pure (principalFrom "static token principal could not be converted" token.claims))
  | none, none =>
    throw (.invalidCredential "no static token matches the presented api key for this scope")
  | none, some validator => a.validateRemotely sys validator scope key

def authenticate [Principal U] [AuthScope S] (sys : Platform m) (a : ApiTokenAuthenticator m U)
    (ctx : AuthContext S) : ExceptT AuthError m (Verdict U) := do
  match a.keyOf ctx.credential with
  | none => return .notApplicable
  | some key =>
    let user ← a.resolve sys (AuthScope.cacheDiscriminator ctx.scope) key
    return .authenticated user

def authenticator [Principal U] [AuthScope S] (sys : Platform m)
    (a : ApiTokenAuthenticator m U) : Authenticator m U S where
  name := "static-token"
  authenticate := a.authenticate sys

/-! ## What is claimed

The prefix decides whether this mechanism or a later one is responsible. From there on the request
is not passed on any more. -/

/-- A credential that carries no key is declined, without touching the lists, the cache or the
validator. -/
theorem authenticate_of_keyOf_eq_none [Principal U] [AuthScope S] {sys : Platform m}
    {a : ApiTokenAuthenticator m U} {ctx : AuthContext S} (h : a.keyOf ctx.credential = none) :
    a.authenticate sys ctx = pure .notApplicable := by
  unfold authenticate
  rw [h]

/-- One that carries a key is decided here: the result is that of resolving the key, never a
refusal. -/
theorem authenticate_of_keyOf_eq_some [Principal U] [AuthScope S] [LawfulMonad m]
    {sys : Platform m} {a : ApiTokenAuthenticator m U} {ctx : AuthContext S} {key : String}
    (h : a.keyOf ctx.credential = some key) :
    a.authenticate sys ctx
      = .authenticated <$> a.resolve sys (AuthScope.cacheDiscriminator ctx.scope) key := by
  unfold authenticate
  rw [h, map_eq_pure_bind]

end ApiTokenAuthenticator

end AuthnKit
