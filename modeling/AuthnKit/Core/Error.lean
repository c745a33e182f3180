import AuthnKit.Foundation.Time

/-!
# AuthnKit — cookies to emit, and authentication failures

`src/cookie.rs` and `src/error.rs`. A failure separates what the client is told
(`clientMessage`, `status`) from what the operator reads (`detail`); a redirect into a login
is a failure that carries cookies.
-/

namespace AuthnKit

/-! ## Cookies -/

inductive SameSite where
  | strict
  | lax
  | none
  deriving DecidableEq

/-- A cookie the caller should set on the outgoing response. -/
structure CookieDirective where
  name : String
  value : String
  path : Option String
  domain : Option String
  maxAge : Option Duration
  httpOnly : Bool
  secure : Bool
  sameSite : Option SameSite
  deriving DecidableEq

namespace CookieDirective

/-- A cookie carrying `value`, with the conservative defaults. -/
def set (name value : String) : CookieDirective where
  name := name
  value := value
  path := none
  domain := none
  maxAge := none
  httpOnly := true
  secure := true
  sameSite := some .lax

/-- The directive that removes `name` from the client. -/
def clear (name : String) : CookieDirective :=
  { set name "" with value := "", maxAge := some .zero }

def withPath (d : CookieDirective) (path : String) : CookieDirective :=
  { d with path := some path }

def withDomain (d : CookieDirective) (domain : String) : CookieDirective :=
  { d with domain := some domain }

def withDomainOpt (d : CookieDirective) (domain : Option String) : CookieDirective :=
  { d with domain := domain }

def withMaxAge (d : CookieDirective) (maxAge : Duration) : CookieDirective :=
  { d with maxAge := some maxAge }

def withHttpOnly (d : CookieDirective) (httpOnly : Bool) : CookieDirective :=
  { d with httpOnly := httpOnly }

def withSecure (d : CookieDirective) (secure : Bool) : CookieDirective :=
  { d with secure := secure }

def withSameSite (d : CookieDirective) (sameSite : Option SameSite) : CookieDirective :=
  { d with sameSite := sameSite }

end CookieDirective

/-! ## Failures -/

inductive AuthError where
  | unauthenticated (detail : String)
  | invalidCredential (detail : String)
  | malformedCredential (detail : String)
  | scopeDenied (detail : String)
  | redirect (location : String) (cookies : List CookieDirective)
  | unsupported (detail : String)
  | upstream (detail : String)
  | internal (detail : String)
  deriving DecidableEq

namespace AuthError

/-- The HTTP status an adapter renders this as. -/
def status : AuthError → ℕ
  | unauthenticated _ | invalidCredential _ => 401
  | malformedCredential _ => 400
  | scopeDenied _ => 403
  | redirect _ _ => 302
  | unsupported _ => 501
  | upstream _ => 503
  | internal _ => 500

/-- The message safe to return to the client. -/
def clientMessage : AuthError → String
  | unauthenticated _ => "Authentication required"
  | invalidCredential _ => "Invalid or expired credentials"
  | malformedCredential _ => "Malformed credentials"
  | scopeDenied _ => "Not authorised for this resource"
  | redirect _ _ => "Redirecting to sign in"
  | unsupported _ => "Authentication method not supported"
  | upstream _ => "Authentication service unavailable"
  | internal _ => "Internal authentication error"

/-- The operator-facing detail, for logs only. -/
def detail : AuthError → String
  | unauthenticated detail | invalidCredential detail | malformedCredential detail
  | scopeDenied detail | unsupported detail | upstream detail | internal detail => detail
  | redirect location _ => location

def isServiceFault : AuthError → Bool
  | upstream _ | internal _ => true
  | _ => false

/-- The variants of the error type, without what they carry. -/
inductive Variant where
  | unauthenticated | invalidCredential | malformedCredential | scopeDenied
  | redirect | unsupported | upstream | internal
  deriving DecidableEq

def variant : AuthError → Variant
  | unauthenticated _ => .unauthenticated
  | invalidCredential _ => .invalidCredential
  | malformedCredential _ => .malformedCredential
  | scopeDenied _ => .scopeDenied
  | redirect _ _ => .redirect
  | unsupported _ => .unsupported
  | upstream _ => .upstream
  | internal _ => .internal

/-- **The client message discloses the variant and nothing else**: two errors render the same
message exactly when they are the same variant. What they carry is in the operator's detail only. -/
theorem clientMessage_eq_iff (e e' : AuthError) :
    e.clientMessage = e'.clientMessage ↔ e.variant = e'.variant := by
  constructor
  · intro h
    cases e <;> cases e' <;> first | rfl | exact absurd h (by simp [clientMessage])
  · intro h
    cases e <;> cases e' <;> first | rfl | exact absurd h (by simp [variant])

/-! ### Results that do not redirect

The login flow is entered through one variant of the error type. A result that stays is one that
does not send the client there. -/

variable {α β : Type}

/-- Success, or a failure other than a redirect. -/
def Stays (result : Except AuthError α) : Prop :=
  ∀ e, result = .error e → e.variant ≠ .redirect

theorem stays_ok (a : α) : Stays (.ok a : Except AuthError α) := by
  intro e h
  cases h

theorem stays_error_iff {e : AuthError} :
    Stays (.error e : Except AuthError α) ↔ e.variant ≠ .redirect := by
  unfold Stays
  simp

/-- What is made of a successful result does not turn it into a redirect. -/
theorem Stays.map {result : Except AuthError α} (h : Stays result) (f : α → β) :
    Stays (result.map f) := by
  cases result with
  | ok a => exact stays_ok (f a)
  | error e => exact stays_error_iff.mpr (h e rfl)

end AuthError

end AuthnKit
