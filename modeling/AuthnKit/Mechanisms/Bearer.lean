import AuthnKit.Mechanisms.ApiToken
import AuthnKit.Oidc.Provider

/-!
# AuthnKit — bearer ID tokens

`src/mechanisms/bearer.rs`: a bearer token with the shape of a compact JWS is verified as an ID
token; any other is declined.
-/

namespace AuthnKit

variable {m : Type → Type} {U S : Type}

/-- Whether a token has the three non-empty dot-separated segments of a compact JWS. -/
def isCompactJws (token : String) : Bool :=
  match Text.split '.' token with
  | [a, b, c] => a != "" && b != "" && c != ""
  | _ => false

structure BearerAuthenticator (m : Type → Type) where
  provider : ProviderHandle m

namespace BearerAuthenticator

variable [Monad m] [Principal U]

/-- The principal of a token of the right shape. -/
def resolve (a : BearerAuthenticator m) (token : String) : ExceptT AuthError m U := do
  let claims ← a.provider.verifyIdToken token .present
  ExceptT.mk (pure (principalFrom "bearer identity conversion" claims))

def authenticate (a : BearerAuthenticator m) (ctx : AuthContext S) :
    ExceptT AuthError m (Verdict U) := do
  let .bearer token := ctx.credential | return .notApplicable
  -- an opaque token is left to whoever else takes bearer tokens
  if !isCompactJws token then
    return .notApplicable
  let user ← a.resolve token
  return .authenticated user

def authenticator (a : BearerAuthenticator m) : Authenticator m U S where
  name := "bearer"
  authenticate := a.authenticate

/-- The tokens this authenticator verifies instead of declining. -/
def Claims : Credential → Prop
  | .bearer token => isCompactJws token = true
  | _ => False

instance : DecidablePred Claims
  | .bearer token => inferInstanceAs (Decidable (isCompactJws token = true))
  | .basic _ _ | .other _ _ | .malformed _ _ | .none => isFalse id

/-- Everything else is declined, without touching the provider: other credentials, and tokens of
another shape. -/
theorem authenticate_of_not_claims {a : BearerAuthenticator m} {ctx : AuthContext S}
    (h : ¬ Claims ctx.credential) :
    (a.authenticate ctx : ExceptT AuthError m (Verdict U)) = pure .notApplicable := by
  unfold authenticate
  cases hc : ctx.credential with
  | bearer token =>
    rw [hc] at h
    have hshape : isCompactJws token = false := by simpa [Claims] using h
    simp [hshape]
  | _ => rfl

/-- A token of the shape is decided here, by verifying it, and not passed on when that fails. -/
theorem authenticate_of_isCompactJws [LawfulMonad m] {a : BearerAuthenticator m}
    {ctx : AuthContext S} {token : String} (hc : ctx.credential = .bearer token)
    (h : isCompactJws token = true) :
    (a.authenticate ctx : ExceptT AuthError m (Verdict U)) = .authenticated <$> a.resolve token := by
  unfold authenticate
  simp [hc, h]

end BearerAuthenticator

/-- The shapes that must be told apart from a JWT. -/
example : isCompactJws "a.b.c" = true ∧ isCompactJws "sptok_abc123" = false
    ∧ isCompactJws "a..c" = false ∧ isCompactJws "a.b.c.d" = false ∧ isCompactJws "" = false := by
  decide

end AuthnKit
