import AuthnKit.Core.Chain
import AuthnKit.Mechanisms.ApiToken
import AuthnKit.Oidc.Login

/-!
# AuthnKit — browser sessions

`src/mechanisms/session.rs`: a request authenticated from the session cookie its scope names.
With a login flow, a navigation without a usable session is redirected into it.
-/

namespace AuthnKit

variable {m : Type → Type} {U S : Type}

structure SessionAuthenticator (m : Type → Type) where
  provider : ProviderHandle m
  codec : SessionCodec
  /-- Where an unauthenticated navigation is sent, instead of being refused. -/
  login : Option (LoginFlow m)

namespace SessionAuthenticator

def withCodec (provider : ProviderHandle m) (codec : SessionCodec) : SessionAuthenticator m where
  provider := provider
  codec := codec
  login := none

def new (provider : ProviderHandle m) : SessionAuthenticator m := withCodec provider idTokenCodec

def withLoginRedirect (a : SessionAuthenticator m) (login : LoginFlow m) : SessionAuthenticator m :=
  { a with login := some login }

def destination (request : AuthRequest) : String :=
  if !request.query.isEmpty then request.path ++ "?" ++ request.query else request.path

variable [Monad m]

/-- A redirect into the login flow, for a `GET`. -/
def challenge (a : SessionAuthenticator m) (ctx : AuthContext S) (fallback : AuthError) :
    m AuthError := do
  let some login := a.login | return fallback
  -- the browser comes back with a `GET`, which would drop the body of anything else
  if ctx.request.method ≠ "GET" then
    return fallback
  match ← (login.authorize (destination ctx.request)).run with
  | .ok redirect => return .redirect redirect.location redirect.cookies
  | .error e => return e

variable [Principal U] [AuthScope S]

def authenticate (a : SessionAuthenticator m) (ctx : AuthContext S) :
    ExceptT AuthError m (Verdict U) := do
  match ctx.request.cookie (AuthScope.sessionCookieName ctx.scope) with
  | none =>
    -- a client presenting some other credential
    if !ctx.credential.isNone then return .notApplicable
    else throw (← ExceptT.lift (a.challenge ctx (.unauthenticated "no session cookie")))
  | some raw => match a.codec.decode raw with
    -- with a cookie the credential is not looked at any more
    | .error e => throw (← ExceptT.lift (a.challenge ctx e))
    | .ok session =>
      -- the nonce belonged to a login that is long over: it only has to be there
      match ← ExceptT.lift (a.provider.verifyIdToken session.idToken .present).run with
      | .ok claims =>
        return .authenticated
          (← ExceptT.mk (pure (principalFrom "session identity conversion" claims)))
      | .error e =>
        -- an unusable session is a re-login, a failure of the provider is not
        if e.status = 401 then throw (← ExceptT.lift (a.challenge ctx e))
        else throw e

def authenticator (a : SessionAuthenticator m) : Authenticator m U S where
  name := "session"
  authenticate := a.authenticate

/-! ## What is claimed

A session cookie makes a request this mechanism's, and so does the absence of any other credential.
-/

/-- What a session cookie resolves to, with no login to fall back on. -/
def resolve (a : SessionAuthenticator m) (raw : String) : ExceptT AuthError m U := do
  let session ← ExceptT.mk (pure (a.codec.decode raw))
  let claims ← a.provider.verifyIdToken session.idToken .present
  ExceptT.mk (pure (principalFrom "session identity conversion" claims))

/-- Another credential without a session cookie is declined, without touching the provider or the
login. -/
theorem authenticate_of_no_cookie {a : SessionAuthenticator m} {ctx : AuthContext S}
    (hcookie : ctx.request.cookie (AuthScope.sessionCookieName ctx.scope) = none)
    (hcredential : ctx.credential.isNone = false) :
    (a.authenticate ctx : ExceptT AuthError m (Verdict U)) = pure .notApplicable := by
  unfold authenticate
  simp [hcookie, hcredential]

/-- A session cookie is decided here: without a login to redirect into, by decoding it and verifying
its token. -/
theorem authenticate_of_cookie [LawfulMonad m] {a : SessionAuthenticator m} (hlogin : a.login = none)
    {ctx : AuthContext S} {raw : String}
    (hcookie : ctx.request.cookie (AuthScope.sessionCookieName ctx.scope) = some raw) :
    (a.authenticate ctx : ExceptT AuthError m (Verdict U)) = .authenticated <$> a.resolve raw := by
  have hchallenge : ∀ e, a.challenge ctx e = pure e := by
    intro e
    unfold challenge
    rw [hlogin]
  unfold authenticate resolve
  simp only [hcookie, hchallenge]
  apply ExceptT.ext
  rw [ExceptT.run_map, Prog.run_mk_bind, pure_bind]
  cases a.codec.decode raw with
  | error e =>
    simp only
    rw [ExceptT.run_bind_lift, pure_bind, map_pure]
    rfl
  | ok session =>
    simp only
    rw [ExceptT.run_bind_lift, ExceptT.run_bind, map_bind]
    congr 1
    funext verified
    cases verified with
    | error e =>
      -- it is reported as it is, re-login or not
      simp only [map_pure]
      split
      · rw [ExceptT.run_bind_lift, pure_bind]
        rfl
      · rfl
    | ok claims =>
      simp only
      rw [Prog.run_mk_bind, pure_bind, ExceptT.run_mk, map_pure]
      cases (principalFrom "session identity conversion" claims : Except AuthError U) with
      | error e => rfl
      | ok user => rfl

end SessionAuthenticator

end AuthnKit
