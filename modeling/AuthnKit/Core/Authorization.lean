import AuthnKit.Core.Request
import AuthnKit.Foundation.Base64
import AuthnKit.Foundation.Text

/-!
# AuthnKit — the Authorization header

`Credential::from_request` of `src/credential.rs`: what was presented, as far as the header tells
without asking anyone.
-/

namespace AuthnKit.Credential

/-- Decodes a Basic payload. The secret may contain `:`. -/
def parseBasic (parameter : String) : Credential :=
  match Base64.decodePadded .standard parameter with
  | Option.none => malformed "basic" "not valid base64"
  | some decoded => match String.fromUTF8? ⟨decoded.toArray⟩ with
    | Option.none => malformed "basic" "not valid UTF-8"
    | some decoded => match Text.splitOnce ':' decoded with
      | Option.none => malformed "basic" "missing ':' separator"
      | some (id, secret) => basic id secret

/-- Parses a raw header value. A lone token has no scheme. -/
def fromAuthorizationHeader (header : String) : Credential :=
  match Text.splitOnce ' ' (Text.trim header) with
  -- a lone token falls through to the cookies
  | Option.none => none
  | some (scheme, parameter) =>
    let parameter := Text.trim parameter
    -- ASCII only, as the source lower-cases it
    let lowercase := scheme.toLower
    if lowercase = "bearer" then bearer parameter
    else if lowercase = "basic" then parseBasic parameter
    else other lowercase parameter

def fromRequest (request : AuthRequest) : Credential :=
  match request.header "authorization" with
  | some header => fromAuthorizationHeader header
  | Option.none => none

/-- A payload that cannot be read is a malformed credential, never a missing one. -/
theorem parseBasic_ne_none (parameter : String) : parseBasic parameter ≠ none := by
  unfold parseBasic
  split
  · exact fun h => nomatch h
  · split
    · exact fun h => nomatch h
    · split
      · exact fun h => nomatch h
      · exact fun h => nomatch h

/-- **No credential is a header without a space**, surrounding whitespace apart: a lone token has no
scheme, so it is as if nothing had been presented. -/
theorem fromAuthorizationHeader_eq_none_iff {header : String} :
    fromAuthorizationHeader header = none ↔ ' ' ∉ (Text.trim header).toList := by
  rw [← Text.splitOnce_eq_none_iff]
  unfold fromAuthorizationHeader
  cases Text.splitOnce ' ' (Text.trim header) with
  | none => simp
  | some parts =>
    simp only [reduceCtorEq, iff_false]
    split
    · exact fun h => nomatch h
    · split
      · exact parseBasic_ne_none _
      · exact fun h => nomatch h

/-- The schemes are told apart, whatever their case, and a lone token is none. -/
example : fromAuthorizationHeader "BEARER  a b " = bearer "a b"
    ∧ fromAuthorizationHeader "Internal x" = other "internal" "x"
    ∧ fromAuthorizationHeader "opaque" = none
    ∧ fromAuthorizationHeader "Basic !" = malformed "basic" "not valid base64" := by
  decide +kernel

end AuthnKit.Credential
