import AuthnKit.Oidc.LoginRuns

/-!
# AuthnKit — where a completed login leads

`authorize` validates the destination; `complete` takes it from the protection cookie, which comes
back from the client and is not authenticated.

* **`redirect_valid_iff`** — a cookie leads to a valid destination, whatever the callback and
  whatever the provider answers, exactly when the destination it decodes to is valid.
* **`forged_destination`** — a cookie nobody minted that leads to another origin.
-/

namespace AuthnKit

namespace LoginService

variable (c : LoginService)

/-- The session values that a login verified with `nonce` can mint. -/
def Mints (nonce value : String) : Prop :=
  ∃ text idToken, ∃ accepted : IdTokenClaims, c.lib.parseIdToken text = .ok idToken
    ∧ c.lib.nonceEquals nonce accepted.nonce = .ok ()
    ∧ c.codec.encode ⟨text, some (toSystemTime accepted.expiration)⟩ = .ok value

/-- **What a genuine login completes with**: the destination of its cookie, and a session it can
mint. -/
theorem Completes.genuine {c : LoginService} {callback : CallbackParams} {cookie : Option String}
    {tr : LoginTrace} {done : LoginComplete} (h : c.Completes callback cookie tr done)
    (hgen : c.Genuine tr) :
    ∃ code protection value, c.check callback cookie = .ok (code, protection)
      ∧ done.redirectTo = protection.destination ∧ c.Mints protection.nonce value
      ∧ done.cookies = [c.session.set value, c.protection.clear] := by
  obtain ⟨code, protection, state, response, idToken, claims, value, hcheck, -, -, hvalue⟩ := h
  have hverifies := hgen idToken.text (.matches protection.nonce) (.ok claims) (by simp)
  obtain ⟨parsed, accepted, hparse, hnonce, rfl⟩ := ProviderService.verifies_ok_iff.mp hverifies
  exact ⟨code, protection, value, hcheck, rfl, ⟨idToken.text, parsed, accepted, hparse, hnonce, hvalue⟩,
    rfl⟩

/-- Where a session can be minted, an admitted callback can complete: the provider has a token
endpoint, and answers with that token. -/
theorem exists_completes {callback : CallbackParams} {cookie : Option String} {code : String}
    {protection : ProtectionData} (hcheck : c.check callback cookie = .ok (code, protection))
    {value : String} (hmints : c.Mints protection.nonce value) :
    ∃ tr claims, c.Genuine tr ∧ c.Completes callback cookie tr
      ⟨claims, protection.destination, [c.session.set value, c.protection.clear]⟩ := by
  obtain ⟨text, idToken, accepted, hparse, hnonce, hvalue⟩ := hmints
  let metadata : ProviderMetadata := ⟨"", some "", none, []⟩
  let state : ProviderState := c.provider.stateOf metadata ⟨0, Instant.zero_lt_max⟩
  refine ⟨_, identityFromIdTokenClaims accepted, ?_, .intro code protection state
    ⟨none, some ⟨text⟩⟩ ⟨text⟩ (identityFromIdTokenClaims accepted) value hcheck rfl rfl hvalue⟩
  intro token nonce a hmem
  simp only [List.mem_cons, List.not_mem_nil, or_false] at hmem
  rcases hmem with hmem | hmem | hmem
  · cases hmem
  · cases hmem
  · cases hmem
    exact ProviderService.verifies_ok_iff.mpr ⟨idToken, accepted, hparse, hnonce, rfl⟩

/-- **A cookie leads only where the policy allows**, for every callback and everything the provider
may answer, exactly when the destination it decodes to is allowed or it can complete nothing. -/
theorem redirect_valid_iff (cookie : Option String) :
    (∀ callback tr done, Prog.Returns (c.flow.complete callback cookie).run tr (.ok done) →
        c.Genuine tr → c.redirectPolicy.validate done.redirectTo = .ok ())
      ↔ ∀ raw protection, cookie = some raw → ProtectionData.decode c.serde raw = .ok protection →
        c.redirectPolicy.validate protection.destination = .ok ()
          ∨ ∀ value, ¬ c.Mints protection.nonce value := by
  constructor
  · intro h raw protection hraw hdecode
    by_cases hmints : ∃ value, c.Mints protection.nonce value
    · -- the callback that returns the cookie's own state
      left
      obtain ⟨value, hmints⟩ := hmints
      have hcheck : c.check (.success "code" protection.csrf) cookie = .ok ("code", protection) :=
        c.check_eq_ok_iff.mpr ⟨rfl, raw, hraw, hdecode⟩
      obtain ⟨tr, claims, hgen, hcompletes⟩ := c.exists_completes hcheck hmints
      exact h _ tr _ (c.returns_complete_iff.mpr hcompletes) hgen
    · right
      intro value hvalue
      exact hmints ⟨value, hvalue⟩
  · intro h callback tr done hret hgen
    -- nothing but the cookie says where it ends
    obtain ⟨code, protection, value, hcheck, hdest, hmints, -⟩ :=
      (c.returns_complete_iff.mp hret).genuine hgen
    obtain ⟨-, raw, hraw, hdecode⟩ := c.check_eq_ok_iff.mp hcheck
    rw [hdest]
    rcases h raw protection hraw hdecode with hvalid | hnone
    · exact hvalid
    · exact absurd hmints (hnone value)

/-! ## A forged cookie

Protection data that no attempt has drawn, with a destination on another origin: anybody can write
them, as the cookie is not signed. -/

def forgedData : ProtectionData := ⟨"c", "n", none, "https://evil.example"⟩

def forgedJson : String :=
  "\x7b\"csrf\":\"c\",\"nonce\":\"n\",\"pkce_verifier\":null,\"destination\":\"https://evil.example\"\x7d"

/-- The base64 of `forgedJson`. -/
def forgedCookie : String :=
  "eyJjc3JmIjoiYyIsIm5vbmNlIjoibiIsInBrY2VfdmVyaWZpZXIiOm51bGwsImRlc3RpbmF0aW9uIjoiaHR0cHM6Ly9ldmls"
    ++ "LmV4YW1wbGUifQ"

theorem encode_forgedJson : Base64.encode .urlSafe forgedJson.toUTF8.data.toList = forgedCookie := by
  decide +kernel

/-- **A login that ends on another origin**: the policy allows relative paths only, and the cookie
was never minted. -/
theorem forged_destination :
    ¬ ∀ callback tr done,
      Prog.Returns ((bareLogin (serdeOf forgedData forgedJson)).flow.complete callback
        (some forgedCookie)).run tr (.ok done) →
      (bareLogin (serdeOf forgedData forgedJson)).Genuine tr →
      RedirectPolicy.relativeOnly.validate done.redirectTo = .ok () := by
  intro h
  have hdecode : ProtectionData.decode (serdeOf forgedData forgedJson) forgedCookie
      = .ok forgedData := by
    unfold ProtectionData.decode
    rw [← encode_forgedJson, Base64.decode_encode]
    simp [serdeOf]
  have hmints : (bareLogin (serdeOf forgedData forgedJson)).Mints "n" "a.b.c" :=
    ⟨"a.b.c", ⟨"a.b.c"⟩, ⟨"alice", 0, none, none, none, some "n", none⟩, rfl, rfl, rfl⟩
  have hcheck : (bareLogin (serdeOf forgedData forgedJson)).check (.success "code" "c")
      (some forgedCookie) = .ok ("code", forgedData) :=
    LoginService.check_eq_ok_iff _ |>.mpr ⟨rfl, forgedCookie, rfl, hdecode⟩
  obtain ⟨tr, claims, hgen, hcompletes⟩ := exists_completes _ hcheck hmints
  have hvalid := h _ tr _ (LoginService.returns_complete_iff _ |>.mpr hcompletes) hgen
  have hpolicy : RedirectPolicy.relativeOnly.validate forgedData.destination ≠ .ok () := by decide
  exact hpolicy hvalid

end LoginService

end AuthnKit
