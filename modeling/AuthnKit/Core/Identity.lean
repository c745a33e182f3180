import AuthnKit.Core.Error

/-!
# AuthnKit — credentials, identity claims, scopes and outcomes

The vocabulary the mechanisms share: what was presented (`src/credential.rs`), what a mechanism
learned from it (`src/claims.rs`), which realm a request targets (`src/scope.rs`), and what was
concluded (`src/outcome.rs`). An application's user and scope types are type parameters with the
classes `Principal` and `AuthScope`.
-/

namespace AuthnKit

/-! ## Credentials -/

/-- What was presented on the `Authorization` header. -/
inductive Credential where
  | bearer (token : String)
  | basic (id secret : String)
  | other (scheme value : String)
  | malformed (scheme detail : String)
  | none
  deriving DecidableEq

namespace Credential

/-- The scheme name, lowercased, unless no header was presented. -/
def scheme : Credential → Option String
  | bearer _ => some "bearer"
  | basic _ _ => some "basic"
  | other scheme _ | malformed scheme _ => some scheme
  | none => Option.none

def isNone : Credential → Bool
  | none => true
  | _ => false

/-- The credential is missing exactly when it is `none`: a header that was malformed is a credential
too. -/
@[simp] theorem isNone_iff {c : Credential} : c.isNone = true ↔ c = none := by
  cases c <;> simp [isNone]

end Credential

/-! ## Identity claims -/

/-- A JSON value. A number is a 64-bit integer or, kept opaque, a double. -/
inductive JsonValue where
  | null
  | bool (b : Bool)
  | int (n : ℤ)
  | float (bits : UInt64)
  | string (s : String)
  | array (items : List JsonValue)
  | object (members : List (String × JsonValue))

/-- Which mechanism produced a set of claims. -/
inductive ClaimSource where
  | idToken
  | accessToken
  | introspection
  | clientCredentials
  | staticToken
  deriving DecidableEq

/-- Normalised identity claims, independent of the mechanism that produced them. -/
structure IdentityClaims where
  subject : Option String := none
  email : Option String := none
  preferredUsername : Option String := none
  name : Option String := none
  clientId : Option String := none
  scope : Option String := none
  /-- When the underlying credential expires, if the provider reported it. -/
  expiresAt : Option SystemTime := none
  source : ClaimSource := .idToken
  /-- Every claim the provider returned. -/
  extra : List (String × JsonValue) := []

namespace IdentityClaims

def new (source : ClaimSource) : IdentityClaims := { source := source }

/-- `preferred_username`, else `email`, else `sub`, else `client_id`. -/
def bestEffortUsername (c : IdentityClaims) : Option String :=
  c.preferredUsername.or (c.email.or (c.subject.or c.clientId))

def withSubject (c : IdentityClaims) (subject : String) : IdentityClaims :=
  { c with subject := some subject }

def withEmail (c : IdentityClaims) (email : String) : IdentityClaims :=
  { c with email := some email }

def withPreferredUsername (c : IdentityClaims) (username : String) : IdentityClaims :=
  { c with preferredUsername := some username }

def withName (c : IdentityClaims) (name : String) : IdentityClaims :=
  { c with name := some name }

def withClientId (c : IdentityClaims) (clientId : String) : IdentityClaims :=
  { c with clientId := some clientId }

def withExpiresAt (c : IdentityClaims) (expiresAt : SystemTime) : IdentityClaims :=
  { c with expiresAt := some expiresAt }

end IdentityClaims

/-- An application's user type: whatever identity claims convert to. The error is its text. -/
class Principal (U : Type) where
  tryFrom : IdentityClaims → Except String U

/-- The user type of the crate's documentation: an email and a display name. -/
structure User where
  email : String
  username : String
  deriving DecidableEq

instance : Principal User where
  tryFrom claims :=
    match claims.email, claims.bestEffortUsername with
    | none, _ => .error "email claim not found"
    | some _, none => .error "no usable identity claim"
    | some email, some username => .ok ⟨email, username⟩

/-! ## Scopes -/

/-- An application's notion of which realm a request authenticates against. -/
class AuthScope (S : Type) where
  display : S → String
  isPublic : S → Bool := fun _ => false
  /-- Mixed into cache keys, so that a credential validated for one tenant is not served to
  another. -/
  cacheDiscriminator : S → Option String := fun _ => none
  sessionCookieName : S → String := display

/-- The scope of a single-tenant service. -/
inductive NoScope where
  | noScope
  deriving DecidableEq

instance : AuthScope NoScope where
  display _ := "session"

/-! ## Outcomes -/

/-- What one authenticator concluded about one request. -/
inductive Verdict (U : Type) where
  | authenticated (user : U)
  | notApplicable
  deriving DecidableEq

/-- What the chain concluded about one request. -/
inductive Outcome (U : Type) where
  | authenticated (user : U)
  | anonymous
  | notApplicable
  deriving DecidableEq

end AuthnKit
