import AuthnKit.Core.Error

/-!
# AuthnKit — classifying the OIDC library's failures

`src/oidc/error.rs`. The library's error types, with the text it renders each detail as, and
their conversion to `AuthError`: a rejected token is the client's problem, an unreachable
issuer is ours.
-/

namespace AuthnKit

inductive DiscoveryError where
  | urlParse (text : String)
  | parse (text : String)
  | request (text : String)
  | response (status : ℕ) (text : String)
  | validation (text : String)
  | other (text : String)
  deriving DecidableEq

def DiscoveryError.toAuthError : DiscoveryError → AuthError
  | urlParse e => .internal ("malformed discovery url: " ++ e)
  | parse e => .upstream ("could not parse provider metadata: " ++ e)
  | request e => .upstream ("discovery request failed: " ++ e)
  | response status e =>
    .upstream ("discovery endpoint returned status " ++ toString status ++ ": " ++ e)
  | validation e => .upstream ("provider metadata failed validation: " ++ e)
  | other e => .upstream ("discovery failed: " ++ e)

inductive SignatureVerificationError where
  | noMatchingKey
  | cryptoError
  | ambiguousKeyId
  | other
  deriving DecidableEq

inductive ClaimsVerificationError where
  | expired (text : String)
  | invalidAudience (text : String)
  | invalidIssuer (text : String)
  | invalidNonce (text : String)
  | invalidAuthTime (text : String)
  | signatureVerification (error : SignatureVerificationError) (text : String)
  | unsupported (text : String)
  | other (text : String)
  deriving DecidableEq

def ClaimsVerificationError.toAuthError : ClaimsVerificationError → AuthError
  | expired detail => .invalidCredential ("token expired: " ++ detail)
  | invalidAudience detail => .invalidCredential ("wrong audience: " ++ detail)
  | invalidIssuer detail => .invalidCredential ("wrong issuer: " ++ detail)
  | invalidNonce detail => .invalidCredential ("nonce mismatch: " ++ detail)
  | invalidAuthTime detail => .invalidCredential ("authentication too old: " ++ detail)
  | signatureVerification _ detail => .invalidCredential ("signature verification: " ++ detail)
  | unsupported detail => .unsupported ("unsupported token: " ++ detail)
  | other detail => .invalidCredential ("claims verification: " ++ detail)

/-- Whether fresh signing keys might change the failure. -/
def isPossiblyStaleKeys : ClaimsVerificationError → Bool
  | .signatureVerification .noMatchingKey _ => true
  | .signatureVerification .cryptoError _ => true
  | .signatureVerification .ambiguousKeyId _ => true
  | _ => false

/-- The error code of a token endpoint's answer. -/
inductive CoreErrorResponseType where
  | unsupportedGrantType
  | invalidGrant
  | invalidClient
  | unauthorizedClient
  | other (text : String)
  deriving DecidableEq

inductive RequestTokenError where
  | serverResponse (error : CoreErrorResponseType)
  | request (text : String)
  | parse (text : String)
  | other (text : String)
  deriving DecidableEq

def RequestTokenError.toAuthError : RequestTokenError → AuthError
  | serverResponse .unsupportedGrantType =>
    .unsupported "the identity provider does not support this grant type"
  | serverResponse .invalidGrant | serverResponse .invalidClient
  | serverResponse .unauthorizedClient =>
    .invalidCredential "credentials rejected by the provider"
  | serverResponse (.other text) => .upstream ("token endpoint error: " ++ text)
  | request e => .upstream ("token request failed: " ++ e)
  | parse e => .upstream ("could not parse token response: " ++ e)
  | other detail => .upstream ("token exchange failed: " ++ detail)

/-- **An unreachable or confused issuer is never blamed on the client**: every failure of discovery
becomes an error that is the service's to fix. -/
theorem DiscoveryError.isServiceFault_toAuthError (e : DiscoveryError) :
    e.toAuthError.isServiceFault = true := by
  cases e <;> rfl

/-- A token that does not verify is never blamed on the service, whatever it is refused for. -/
theorem ClaimsVerificationError.not_isServiceFault_toAuthError (e : ClaimsVerificationError) :
    e.toAuthError.isServiceFault = false := by
  cases e <;> rfl

end AuthnKit
