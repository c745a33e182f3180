import AuthnKit.Mechanisms.SessionRedirect
import AuthnKit.Oidc.ProtectionCookie

/-!
# AuthnKit — what a session challenge keeps

A navigation without a usable session is sent into the login flow, and the protection cookie keeps
where it was.

* **`validate_destination`** — the destinations the default policy lets through.
* **`challenged_of_authenticate`**, **`authenticate_of_challenged`** — the three branches of
  `authenticate` that end in a challenge, as one.
* **`challenge_faithful`** — a challenge leads back to where the browser was, or changes nothing.
-/

namespace AuthnKit

variable {U S : Type}

/-! ## Destinations

Where a browser comes back to is put together from the path and the query of the request. The
default policy looks at its first characters and at control characters. -/

/-- A path and a query that name a place on this origin. -/
structure OnOrigin (request : AuthRequest) : Prop where
  absolute : Text.startsWith "/" request.path = true
  /-- It cannot be read as a URL of another host. -/
  no_authority : Text.startsWith "//" request.path = false
    ∧ Text.startsWith "/\\" request.path = false
  path_clean : Text.All (Text.isControl · = false) request.path
  query_clean : Text.All (Text.isControl · = false) request.query

namespace OnOrigin

variable {request : AuthRequest}

/-- A destination is the path, with the query where there is one. -/
theorem destination_cases (request : AuthRequest) :
    SessionAuthenticator.destination request = request.path
      ∨ SessionAuthenticator.destination request = request.path ++ "?" ++ request.query := by
  unfold SessionAuthenticator.destination
  split
  · exact .inr rfl
  · exact .inl rfl

/-- There are no control characters in it. -/
theorem destination_clean (h : OnOrigin request) :
    (SessionAuthenticator.destination request).toList.any Text.isControl = false := by
  rw [List.any_eq_false]
  intro c hc
  rw [Bool.not_eq_true]
  rcases destination_cases request with hd | hd
  · rw [hd] at hc
    exact h.path_clean c hc
  · rw [hd, String.toList_append, String.toList_append] at hc
    simp only [List.mem_append] at hc
    rcases hc with (hc | hc) | hc
    · exact h.path_clean c hc
    · obtain rfl : c = '?' := by simpa using hc
      decide
    · exact h.query_clean c hc

/-- What follows a path is not read as a part of its beginning: the question mark is no slash. -/
theorem startsWith_append {path rest : String} {c : Char} (hpath : Text.startsWith "/" path = true)
    (hc : c ≠ '?') : Text.startsWith ("/" ++ String.singleton c) (path ++ "?" ++ rest)
      = Text.startsWith ("/" ++ String.singleton c) path := by
  obtain ⟨tail, rfl⟩ := Text.startsWith_iff.mp hpath
  unfold Text.startsWith
  cases htail : tail.toList with
  | nil => simp [htail, hc, List.isPrefixOf]
  | cons d tail => simp [htail, List.isPrefixOf]

/-- **The default policy lets a place on this origin through**: it starts with one slash, and not
with what reads as another host. -/
theorem validate_destination (h : OnOrigin request) :
    RedirectPolicy.relativeOnly.validate (SessionAuthenticator.destination request) = .ok () := by
  have habsolute : Text.startsWith "/" (SessionAuthenticator.destination request) = true := by
    obtain ⟨tail, htail⟩ := Text.startsWith_iff.mp h.absolute
    rw [Text.startsWith_iff]
    rcases destination_cases request with hd | hd
    · exact ⟨tail, hd.trans htail⟩
    · refine ⟨tail ++ "?" ++ request.query, ?_⟩
      rw [hd, htail, String.append_assoc, String.append_assoc, String.append_assoc]
  have hsecond : ∀ c : Char, c ≠ '?' →
      Text.startsWith ("/" ++ String.singleton c) (SessionAuthenticator.destination request)
        = Text.startsWith ("/" ++ String.singleton c) request.path := by
    intro c hc
    rcases destination_cases request with hd | hd
    · rw [hd]
    · rw [hd, startsWith_append h.absolute hc]
  have hslash : Text.startsWith "//" (SessionAuthenticator.destination request) = false :=
    (hsecond '/' (by decide)).trans h.no_authority.1
  have hbackslash : Text.startsWith "/\\" (SessionAuthenticator.destination request) = false :=
    (hsecond '\\' (by decide)).trans h.no_authority.2
  unfold RedirectPolicy.validate
  rw [if_neg (by rw [h.destination_clean]; decide), if_pos habsolute, hslash, hbackslash]
  rfl

end OnOrigin

/-! ## A login that begins

Beginning a login draws secrets and encodes them. With a serialiser that loses nothing and an
allowed destination, it cannot fail. -/

namespace LoginService

variable (c : LoginService) {destination : String}

/-- With an allowed destination nothing can fail, whatever is drawn. -/
theorem ends_authorize_ok (hserde : c.serde.Lossless)
    (hvalid : c.redirectPolicy.validate destination = .ok ()) :
    Prog.Ends (fun begun => ∃ redirect, begun = .ok redirect)
      (c.flow.authorize destination).run := by
  have hdrawn : ∀ state pkce,
      Prog.Ends (fun begun => ∃ redirect, begun = .ok redirect)
        (c.drawn destination state pkce) := by
    intro state pkce
    refine .call fun csrf => .call fun nonce => .ret ?_
    obtain ⟨value, hvalue⟩ := hserde.encode (protectionOf pkce csrf nonce destination)
    unfold redirectOf
    rw [hvalue]
    exact ⟨_, rfl⟩
  rw [run_authorize, hvalid]
  refine .call fun state => ?_
  split
  · exact .call fun pair => hdrawn state (some pair)
  · exact hdrawn state none

theorem canBegin_of_lossless (hserde : c.serde.Lossless)
    (hvalid : c.redirectPolicy.validate destination = .ok ()) : c.CanBegin destination := by
  refine ⟨hvalid, if c.config.usePkce then some ("", "") else none, "", "", ?_⟩
  obtain ⟨value, hvalue⟩ := hserde.encode
    (protectionOf (if c.config.usePkce then some ("", "") else none) "" "" destination)
  refine ⟨value, ?_, hvalue⟩
  cases c.config.usePkce <;> rfl

/-- **The protection cookie of a login keeps its destination**: the destination is read from it when
the login is completed. -/
theorem Begins.protection {c : LoginService} {tr : LoginTrace} {redirect : AuthorizationRedirect}
    (hserde : c.serde.Lossless) (h : c.Begins destination tr redirect) :
    ∃ value p, redirect.cookies = [c.protection.set value, c.session.clear]
      ∧ ProtectionData.decode c.serde value = .ok p ∧ p.destination = destination := by
  cases h with
  | intro state pkce csrf nonce value hvalid hpkce hvalue =>
    exact ⟨value, _, rfl, ProtectionData.decode_of_encode hserde.roundTrips hvalue, rfl⟩

end LoginService

/-! ## Requests without a usable session

No cookie, a cookie that does not decode, a token that is refused: all three are challenged, each
with its own error. -/

theorem SessionAuthenticator.destination_eq (request : AuthRequest) :
    destination request
      = if request.query = "" then request.path else request.path ++ "?" ++ request.query := by
  unfold destination
  by_cases hquery : request.query = ""
  · simp [hquery]
  · have hempty : request.query.isEmpty = false := by
      rw [← Bool.not_eq_true, String.isEmpty_iff]
      exact hquery
    rw [if_neg hquery, hempty]
    rfl

namespace SessionService

section Challenged

variable {c : SessionService} {ctx : AuthContext S} {e : AuthError} {tr : LoginTrace}
  {result : Except AuthError (Verdict U)} {login : LoginService}

/-- A challenge into a login that cannot fail redirects, and keeps the destination in the protection
cookie. -/
theorem redirect_of_challenged
    (hlogin : c.loginFor ctx.request = some login) (hserde : login.serde.Lossless)
    (hvalid : login.redirectPolicy.validate (SessionAuthenticator.destination ctx.request) = .ok ())
    (hret : Prog.Returns (c.challenged ctx e) tr result) :
    ∃ location value p,
      result = .error (.redirect location [login.protection.set value, login.session.clear])
        ∧ ProtectionData.decode login.serde value = .ok p
        ∧ p.destination = SessionAuthenticator.destination ctx.request := by
  obtain ⟨tr₁, e', tr₂, rfl, hchallenge, hend⟩ := Prog.returns_bind_iff.mp hret
  obtain ⟨rfl, rfl⟩ := Prog.returns_ret_iff.mp hend
  rw [challenge_eq, hlogin] at hchallenge
  obtain ⟨tr₃, begun, tr₄, rfl, hbegun, hredirect⟩ := Prog.returns_bind_iff.mp hchallenge
  obtain ⟨redirect, rfl⟩ := (login.ends_authorize_ok hserde hvalid).of_returns hbegun
  obtain ⟨-, rfl⟩ := Prog.returns_ret_iff.mp hredirect
  obtain ⟨value, p, hcookies, hdecode, hdestination⟩ :=
    (login.returns_authorize_iff.mp hbegun).protection hserde
  exact ⟨redirect.location, value, p, by rw [hcookies], hdecode, hdestination⟩

/-- A challenge ends, one way or another, without a verification. -/
theorem exists_challenged (hlogin : c.login = some login) (hserde : login.serde.Lossless)
    (ctx : AuthContext S) (e : AuthError) :
    ∃ tr, (∃ result : Except AuthError (Verdict U), Prog.Returns (c.challenged ctx e) tr result)
      ∧ ∀ token nonce a, ⟨.verifyIdToken token nonce, a⟩ ∉ tr := by
  by_cases hmethod : ctx.request.method = "GET"
  · have hfor : c.loginFor ctx.request = some login := by
      unfold loginFor
      rw [if_pos hmethod, hlogin]
    cases hvalid : login.redirectPolicy.validate
        (SessionAuthenticator.destination ctx.request) with
    | ok =>
      obtain ⟨tr, redirect, hbegins⟩ :=
        login.canBegin_iff.mp (login.canBegin_of_lossless hserde hvalid)
      exact ⟨tr, ⟨_, challenged_of_begins hfor hbegins e⟩, hbegins.not_mem_verifyIdToken⟩
    | error refused =>
      refine ⟨[], ⟨.error refused, ?_⟩, fun _ _ _ => List.not_mem_nil⟩
      unfold challenged
      rw [challenge_eq, hfor]
      simp only
      rw [login.run_authorize, hvalid]
      exact .ret _
  · have hfor : c.loginFor ctx.request = none := if_neg hmethod
    refine ⟨[], ⟨.error e, ?_⟩, fun _ _ _ => List.not_mem_nil⟩
    rw [challenged_of_none hfor]
    exact .ret _

end Challenged

variable (c : SessionService) [Principal U] [AuthScope S]
  {verify : String → NonceCheck → Except AuthError IdentityClaims} {ctx : AuthContext S}

/-- The request has no usable session: no cookie, one that the codec rejects, or a token that is
refused as unauthorized. The error says which. -/
inductive Unusable (verify : String → NonceCheck → Except AuthError IdentityClaims)
    (ctx : AuthContext S) : AuthError → Prop where
  | absent (hcookie : ctx.request.cookie (AuthScope.sessionCookieName ctx.scope) = none) :
    Unusable verify ctx (.unauthenticated "no session cookie")
  | rejected {raw : String} {e : AuthError}
    (hcookie : ctx.request.cookie (AuthScope.sessionCookieName ctx.scope) = some raw)
    (hdecode : c.codec.decode raw = .error e) : Unusable verify ctx e
  | refused {raw : String} {session : Session} {e : AuthError}
    (hcookie : ctx.request.cookie (AuthScope.sessionCookieName ctx.scope) = some raw)
    (hdecode : c.codec.decode raw = .ok session)
    (hverify : verify session.idToken .present = .error e) (hstatus : e.status = 401) :
    Unusable verify ctx e

variable {c} {e : AuthError} {tr : LoginTrace} {result : Except AuthError (Verdict U)}

/-- **Whatever the reason, the request is challenged** with the error that says it, and the result
is that of the challenge. -/
theorem challenged_of_authenticate (hcred : ctx.credential = .none) (h : c.Unusable verify ctx e)
    (hret : Prog.Returns (c.authenticator.authenticate ctx).run tr result)
    (hans : Answers verify tr) : ∃ tr', Prog.Returns (c.challenged ctx e) tr' result := by
  rw [run_authenticate] at hret
  cases h with
  | absent hcookie =>
    have hnone : ctx.credential.isNone = true := Credential.isNone_iff.mpr hcred
    simp only [hcookie, hnone] at hret
    exact ⟨tr, hret⟩
  | rejected hcookie hdecode =>
    simp only [hcookie, hdecode] at hret
    exact ⟨tr, hret⟩
  | refused hcookie hdecode hverify hstatus =>
    simp only [hcookie, hdecode] at hret
    obtain ⟨answer, rest, rfl, hrest⟩ := Prog.returns_call_iff.mp hret
    have hanswer : answer = .error e := (hans _ _ _ List.mem_cons_self).trans hverify
    rw [hanswer] at hrest
    simp only [if_pos hstatus] at hrest
    exact ⟨rest, hrest⟩

/-- A challenge is the end of some behaviour of `authenticate`, so what it can do, the mechanism
can. -/
theorem authenticate_of_challenged (hcred : ctx.credential = .none) (h : c.Unusable verify ctx e)
    (hret : Prog.Returns (c.challenged ctx e) tr result)
    (hnone : ∀ token nonce a, ⟨.verifyIdToken token nonce, a⟩ ∉ tr) :
    ∃ tr', Prog.Returns (c.authenticator.authenticate ctx).run tr' result ∧ Answers verify tr' := by
  cases h with
  | absent hcookie =>
    have hisNone : ctx.credential.isNone = true := Credential.isNone_iff.mpr hcred
    refine ⟨tr, ?_, fun token nonce a hmem => absurd hmem (hnone token nonce a)⟩
    rw [run_authenticate]
    simp only [hcookie, hisNone]
    exact hret
  | @rejected raw e hcookie hdecode =>
    have hrefusal : c.refusal verify raw = some e := by
      unfold refusal
      rw [hdecode]
    exact c.returns_of_refusal hcookie hrefusal hret hnone
  | @refused raw session e hcookie hdecode hverify hstatus =>
    have hrefusal : c.refusal verify raw = some e := by
      unfold refusal
      simp only [hdecode, hverify, if_pos hstatus]
    exact c.returns_of_refusal hcookie hrefusal hret hnone

/-- **A challenge is faithful**: a navigation to a place on this origin comes back to it after the
login, and any other request gets the error it would have got without one. -/
theorem challenge_faithful {login : LoginService} (hlogin : c.login = some login)
    (hpolicy : login.redirectPolicy = .relativeOnly) (hserde : login.serde.Lossless)
    (hcred : ctx.credential = .none) (h : c.Unusable verify ctx e) :
    (∃ tr, (∃ result : Except AuthError (Verdict U),
        Prog.Returns (c.authenticator.authenticate ctx).run tr result) ∧ Answers verify tr)
    ∧ ∀ tr (result : Except AuthError (Verdict U)),
      Prog.Returns (c.authenticator.authenticate ctx).run tr result → Answers verify tr →
      (ctx.request.method = "GET" → OnOrigin ctx.request →
        ∃ location value p,
          result = .error (.redirect location [login.protection.set value, login.session.clear])
            ∧ ProtectionData.decode login.serde value = .ok p
            ∧ p.destination = if ctx.request.query = "" then ctx.request.path
              else ctx.request.path ++ "?" ++ ctx.request.query)
      ∧ (ctx.request.method ≠ "GET" → result = .error e) := by
  constructor
  · obtain ⟨tr, ⟨result, hret⟩, hnone⟩ := exists_challenged (U := U) hlogin hserde ctx e
    obtain ⟨tr', hret', hans⟩ := authenticate_of_challenged hcred h hret hnone
    exact ⟨tr', ⟨result, hret'⟩, hans⟩
  intro tr result hret hans
  obtain ⟨tr', hchallenged⟩ := challenged_of_authenticate hcred h hret hans
  constructor
  · intro hmethod horigin
    have hfor : c.loginFor ctx.request = some login := by
      unfold loginFor
      rw [if_pos hmethod, hlogin]
    have hvalid := horigin.validate_destination
    rw [← hpolicy] at hvalid
    rw [← SessionAuthenticator.destination_eq]
    exact redirect_of_challenged hfor hserde hvalid hchallenged
  · intro hmethod
    have hfor : c.loginFor ctx.request = none := if_neg hmethod
    rw [challenged_of_none hfor] at hchallenged
    exact (Prog.returns_ret_iff.mp hchallenged).2

/-! ### Two navigations

One to a page, and one to a path that starts with two slashes, which the policy refuses to come back
to. -/

/-- A navigation without cookies. -/
def pageRequest (path query : String) : AuthContext NoScope where
  request := ((({} : AuthRequestBuilder).method "GET").path path |>.query query).build
  credential := .none
  scope := .noScope

/-- A navigation without cookies has no usable session, whatever the provider would say. -/
theorem bareSession_unusable (path query : String)
    (verify : String → NonceCheck → Except AuthError IdentityClaims) :
    bareSession.Unusable verify (pageRequest path query) (.unauthenticated "no session cookie") :=
  .absent rfl

/-- No token is accepted. -/
def refusesAll : String → NonceCheck → Except AuthError IdentityClaims :=
  fun _ _ => .error (.unauthenticated "expired")

/-- The browser comes back to where it was, query and all. -/
theorem config_challenged :
    ∃ tr result, Prog.Returns
        (bareSession.authenticator.authenticate (U := User) (pageRequest "/config" "tab=1")).run
        tr result
      ∧ ∃ location value p,
        result = .error (.redirect location [(LoginService.bareLogin .json).protection.set value,
          (LoginService.bareLogin .json).session.clear])
        ∧ ProtectionData.decode .json value = .ok p ∧ p.destination = "/config?tab=1" := by
  have horigin : OnOrigin (pageRequest "/config" "tab=1").request :=
    ⟨by decide +kernel, ⟨by decide +kernel, by decide +kernel⟩, by decide +kernel,
      by decide +kernel⟩
  obtain ⟨⟨tr, ⟨result, hret⟩, hans⟩, hall⟩ := challenge_faithful (U := User) rfl rfl
    ProtectionSerde.lossless_json rfl (bareSession_unusable "/config" "tab=1" refusesAll)
  obtain ⟨location, value, p, hresult, hdecode, hdestination⟩ :=
    (hall tr result hret hans).1 (by decide +kernel) horigin
  refine ⟨tr, result, hret, location, value, p, hresult, hdecode, ?_⟩
  rw [hdestination]
  decide +kernel

/-- **A path that reads as another host is refused**: the browser is neither redirected nor told
that there is no session. -/
theorem authority_refused :
    Text.startsWith "/" "//evil.example" = true
      ∧ Text.All (Text.isControl · = false) "//evil.example"
      ∧ bareSession.Unusable refusesAll (pageRequest "//evil.example" "")
        (.unauthenticated "no session cookie")
      ∧ (bareSession.authenticator.authenticate (U := User) (pageRequest "//evil.example" "")).run
        = .ret (.error (.malformedCredential
          "rejected login redirect \"//evil.example\": protocol-relative url")) := by
  refine ⟨by decide +kernel, by decide +kernel, bareSession_unusable _ _ _, ?_⟩
  have hcookie : (pageRequest "//evil.example" "").request.cookie
      (AuthScope.sessionCookieName (pageRequest "//evil.example" "").scope) = none := rfl
  have hfor : bareSession.loginFor (pageRequest "//evil.example" "").request
      = some (LoginService.bareLogin .json) := if_pos (by decide +kernel)
  have hvalid : (LoginService.bareLogin .json).redirectPolicy.validate
      (SessionAuthenticator.destination (pageRequest "//evil.example" "").request)
        = .error (.malformedCredential
          "rejected login redirect \"//evil.example\": protocol-relative url") := by rfl
  rw [run_authenticate, hcookie]
  show bareSession.challenged _ _ = _
  unfold challenged
  rw [challenge_eq, hfor]
  simp only
  rw [LoginService.run_authorize, hvalid]
  rfl

end SessionService

end AuthnKit
