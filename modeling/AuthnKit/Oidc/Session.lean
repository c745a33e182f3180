import AuthnKit.Core.Error

/-!
# AuthnKit — sessions and the cookies that carry them

`src/oidc/session.rs`: a browser session, the codec between it and its cookie value, and how a
cookie is scoped and protected.
-/

namespace AuthnKit

structure Session where
  idToken : String
  /-- When the token expires, if the provider reported it. -/
  expiresAt : Option SystemTime

/-- Converts a session to and from the string stored in its cookie. -/
structure SessionCodec where
  encode : Session → Except AuthError String
  decode : String → Except AuthError Session

/-- Stores the ID token verbatim. -/
def idTokenCodec : SessionCodec where
  encode session := .ok session.idToken
  decode raw :=
    if raw.isEmpty then .error (.unauthenticated "empty session cookie")
    else .ok ⟨raw, none⟩

structure CookieSettings where
  name : String
  path : String
  domain : Option String
  maxAge : Duration
  secure : Bool
  sameSite : Option SameSite
  deriving DecidableEq

namespace CookieSettings

/-- The defaults for a session cookie: one day. -/
def ofSession (name : String) : CookieSettings where
  name := name
  path := "/"
  domain := none
  maxAge := .fromSecs (24 * 60 * 60)
  secure := true
  sameSite := some .lax

/-- The defaults for a login-protection cookie: ten minutes. -/
def ofProtection (name : String) : CookieSettings where
  name := name
  path := "/"
  domain := none
  maxAge := .fromSecs (10 * 60)
  secure := true
  sameSite := some .lax

/-- The directive carrying `value`. -/
def set (c : CookieSettings) (value : String) : CookieDirective :=
  CookieDirective.set c.name value
    |>.withPath c.path |>.withDomainOpt c.domain |>.withMaxAge c.maxAge |>.withHttpOnly true
    |>.withSecure c.secure |>.withSameSite c.sameSite

/-- The directive that removes this cookie from the client. -/
def clear (c : CookieSettings) : CookieDirective :=
  CookieDirective.clear c.name
    |>.withPath c.path |>.withDomainOpt c.domain |>.withSecure c.secure
    |>.withSameSite c.sameSite

end CookieSettings

end AuthnKit
