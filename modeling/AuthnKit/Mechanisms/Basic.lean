import AuthnKit.Mechanisms.ApiToken
import AuthnKit.Oidc.Provider

/-!
# AuthnKit — Basic credentials exchanged at the token endpoint

`src/mechanisms/basic.rs`. Two grants sit behind one header, selected by `X-Grant-Type`; each
caches the principal it resolved, under a mechanism name of its own.
-/

namespace AuthnKit

variable {m : Type → Type} {U S : Type}

/-- The header selecting which grant a Basic pair is validated under. -/
def grantTypeHeader : String := "x-grant-type"

structure BasicAuthenticator (m : Type → Type) (U : Type) where
  provider : ProviderHandle m
  cache : CacheHandle m U
  allowPasswordGrant : Bool

namespace BasicAuthenticator

/-- Enables the client-credentials grant only. -/
def new (provider : ProviderHandle m) (cache : CacheHandle m U) : BasicAuthenticator m U where
  provider := provider
  cache := cache
  allowPasswordGrant := false

def withPasswordGrant (a : BasicAuthenticator m U) (allow : Bool) : BasicAuthenticator m U :=
  { a with allowPasswordGrant := allow }

variable [Monad m] [Principal U] [AuthScope S]

/-- A token request sent and its failure classified. -/
def requestAsync (a : BasicAuthenticator m U) (request : TokenRequest) :
    ExceptT AuthError m TokenResponse := do
  match ← a.provider.requestAsync request with
  | .ok response => return response
  | .error e => throw e.toAuthError

def passwordGrant (blake3 : Blake3) (a : BasicAuthenticator m U) (ctx : AuthContext S)
    (id secret : String) : ExceptT AuthError m U := do
  let key := CredentialCache.key blake3 (AuthScope.cacheDiscriminator ctx.scope)
    "basic-password" id secret
  if let some user ← a.cache.get key then
    return user
  let state ← a.provider.snapshot
  let request ← ExceptT.mk (pure
    (state.client.exchange a.provider.lib (.password id secret)))
  let response ← a.requestAsync { request with scopes := a.provider.config.scopes }
  let some idToken := response.idToken
    | throw (.upstream "token response carried no id_token")
  -- no authorization request preceded this token, so it carries no nonce
  let claims ← a.provider.verifyIdToken idToken.text .skip
  let user ← ExceptT.mk (pure (principalFrom "password-grant identity conversion" claims))
  -- the lifetime of the response, not of the ID token
  a.cache.insert key user response.expiresIn
  return user

def clientCredentialsGrant (blake3 : Blake3) (a : BasicAuthenticator m U) (ctx : AuthContext S)
    (id secret : String) : ExceptT AuthError m U := do
  let key := CredentialCache.key blake3 (AuthScope.cacheDiscriminator ctx.scope)
    "basic-client-credentials" id secret
  if let some user ← a.cache.get key then
    return user
  -- the caller's own client: the exchange is what proves the pair
  let client ← a.provider.machineClient id secret
  let request ← ExceptT.mk (pure (client.exchange a.provider.lib .clientCredentials))
  let response ← a.requestAsync request
  let claims := IdentityClaims.new .clientCredentials
    |>.withSubject id |>.withClientId id |>.withPreferredUsername id
  let user ← ExceptT.mk (pure (principalFrom "client-credentials identity conversion" claims))
  a.cache.insert key user response.expiresIn
  return user

def authenticate (blake3 : Blake3) (a : BasicAuthenticator m U) (ctx : AuthContext S) :
    ExceptT AuthError m (Verdict U) := do
  let .basic id secret := ctx.credential | return .notApplicable
  match ctx.request.header grantTypeHeader with
  -- the header's value is compared as it is, case included
  | none | some "client_credentials" =>
    return .authenticated (← a.clientCredentialsGrant blake3 ctx id secret)
  | some "password" =>
    if a.allowPasswordGrant then
      return .authenticated (← a.passwordGrant blake3 ctx id secret)
    throw (.unsupported "the resource-owner password grant is not enabled")
  | some other => throw (.malformedCredential ("unsupported x-grant-type: " ++ other))

def authenticator (blake3 : Blake3) (a : BasicAuthenticator m U) : Authenticator m U S where
  name := "basic"
  authenticate := a.authenticate blake3

def Claims : Credential → Prop
  | .basic _ _ => True
  | _ => False

instance : DecidablePred Claims
  | .basic _ _ => isTrue trivial
  | .bearer _ | .other _ _ | .malformed _ _ | .none => isFalse id

/-- Everything but a Basic pair is declined, without touching the cache or the provider. -/
theorem authenticate_of_not_claims {blake3 : Blake3} {a : BasicAuthenticator m U}
    {ctx : AuthContext S} (h : ¬ Claims ctx.credential) :
    a.authenticate blake3 ctx = pure .notApplicable := by
  unfold authenticate
  cases hc : ctx.credential with
  | basic id secret => rw [hc] at h; exact absurd trivial h
  | _ => rfl

/-- A Basic pair is decided here, whatever the grant: by some computation, and never by a refusal.
-/
theorem authenticate_of_claims [LawfulMonad m] {blake3 : Blake3} {a : BasicAuthenticator m U}
    {ctx : AuthContext S} (h : Claims ctx.credential) :
    ∃ p, a.authenticate blake3 ctx = .authenticated <$> p := by
  unfold authenticate
  cases hc : ctx.credential with
  | basic id secret =>
    simp only
    split
    · exact ⟨_, (map_eq_pure_bind _ _).symm⟩
    · exact ⟨_, (map_eq_pure_bind _ _).symm⟩
    · split
      · exact ⟨_, (map_eq_pure_bind _ _).symm⟩
      · exact ⟨_, (ExceptT.map_throw _ _).symm⟩
    · exact ⟨_, (ExceptT.map_throw _ _).symm⟩
  | _ => rw [hc] at h; exact absurd h id

end BasicAuthenticator

end AuthnKit
