import AuthnKit.Mechanisms.Session
import AuthnKit.Oidc.LoginRuns
import AuthnKit.Oidc.ProtectionCookie

/-!
# AuthnKit — when a session challenge redirects

A session authenticator with its effects as operations. Its verifications are those of its own
provider, its logins those of the login flow it redirects into.

* **`never_redirects_iff`** — when a request that carries some credential is redirected by no
  behaviour.
* **`bearer_redirected`** — an API client that also has a session cookie is.
-/

namespace AuthnKit

variable {U S : Type}

/-- How a session authenticator is configured. -/
structure SessionService where
  config : OidcConfig
  lib : OpenIdConnect
  codec : SessionCodec
  login : Option LoginService

namespace SessionService

variable (c : SessionService)

def authenticator : SessionAuthenticator LoginProg where
  provider := LoginProg.provider c.config c.lib
  codec := c.codec
  login := c.login.map LoginService.flow

def provider : ProviderService := ⟨c.config, c.lib⟩

/-- The login that a request is challenged with. -/
def loginFor (request : AuthRequest) : Option LoginService :=
  if request.method = "GET" then c.login else none

/-- **A challenge, unfolded**: without a login the error as it is, and with one the beginning of it,
unless that fails. -/
theorem challenge_eq (ctx : AuthContext S) (fallback : AuthError) :
    c.authenticator.challenge ctx fallback = match c.loginFor ctx.request with
      | none => .ret fallback
      | some login =>
        (login.flow.authorize (SessionAuthenticator.destination ctx.request)).run >>= fun begun =>
          match begun with
          | .ok redirect => .ret (.redirect redirect.location redirect.cookies)
          | .error e => .ret e := by
  unfold SessionAuthenticator.challenge authenticator loginFor
  cases c.login with
  | none =>
    rw [ite_self]
    rfl
  | some login =>
    by_cases hmethod : ctx.request.method = "GET"
    · rw [if_pos hmethod]
      show (if ctx.request.method ≠ "GET" then _ else _) = _
      rw [if_neg (not_not.mpr hmethod)]
      rfl
    · rw [if_neg hmethod]
      exact if_pos hmethod

/-! ### What a challenge answers

Whether a challenge redirects depends on the method, on the login and on the destination. In a run
it is one of the ends of `authenticate`. -/

/-- A challenge with `fallback` can end in a redirect: a login can begin there, or there is none
and the fallback itself redirects. -/
def Redirects (request : AuthRequest) (fallback : AuthError) : Prop :=
  match c.loginFor request with
  | some login => login.CanBegin (SessionAuthenticator.destination request)
  | none => fallback.variant = .redirect

def challenged (ctx : AuthContext S) (fallback : AuthError) :
    LoginProg (Except AuthError (Verdict U)) :=
  c.authenticator.challenge ctx fallback >>= fun e => .ret (.error e)

variable {c} {ctx : AuthContext S} {login : LoginService}

/-- A login that begins is where a challenge sends the browser, with the cookies it has set. -/
theorem challenged_of_begins (hlogin : c.loginFor ctx.request = some login) {tr : LoginTrace}
    {redirect : AuthorizationRedirect}
    (h : login.Begins (SessionAuthenticator.destination ctx.request) tr redirect)
    (fallback : AuthError) :
    Prog.Returns (c.challenged ctx fallback) tr
      (.error (.redirect redirect.location redirect.cookies) : Except AuthError (Verdict U)) := by
  have hchallenge : Prog.Returns (c.authenticator.challenge ctx fallback) tr
      (.redirect redirect.location redirect.cookies) := by
    rw [challenge_eq, hlogin]
    exact Prog.returns_bind_iff.mpr ⟨tr, .ok redirect, [], (List.append_nil tr).symm,
      login.returns_authorize_iff.mpr h, .ret _⟩
  exact Prog.returns_bind_iff.mpr ⟨tr, _, [], (List.append_nil tr).symm, hchallenge, .ret _⟩

/-- A challenge that redirects where there is a login has begun it, in just these operations. -/
theorem begins_of_challenged (hlogin : c.loginFor ctx.request = some login) {fallback e : AuthError}
    {tr : LoginTrace}
    (h : Prog.Returns (c.challenged ctx fallback) tr (.error e : Except AuthError (Verdict U)))
    (he : e.variant = .redirect) :
    ∃ redirect, login.Begins (SessionAuthenticator.destination ctx.request) tr redirect
      ∧ e = .redirect redirect.location redirect.cookies := by
  obtain ⟨tr₁, e', tr₂, rfl, hchallenge, hend⟩ := Prog.returns_bind_iff.mp h
  obtain ⟨rfl, he'⟩ := Prog.returns_ret_iff.mp hend
  obtain rfl := Except.error.inj he'
  rw [challenge_eq, hlogin] at hchallenge
  obtain ⟨tr₃, begun, tr₄, rfl, hbegun, hret⟩ := Prog.returns_bind_iff.mp hchallenge
  cases begun with
  | ok redirect =>
    obtain ⟨rfl, rfl⟩ := Prog.returns_ret_iff.mp hret
    rw [List.append_nil, List.append_nil]
    exact ⟨redirect, login.returns_authorize_iff.mp hbegun, rfl⟩
  | error refused =>
    obtain ⟨-, rfl⟩ := Prog.returns_ret_iff.mp hret
    exact absurd he ((login.ends_authorize _).of_returns hbegun e rfl)

theorem challenged_of_none (hlogin : c.loginFor ctx.request = none) (fallback : AuthError) :
    (c.challenged ctx fallback : LoginProg (Except AuthError (Verdict U))) = .ret (.error fallback) := by
  unfold challenged
  rw [challenge_eq, hlogin]
  rfl

/-- A challenge that cannot redirect is a failure of another kind. -/
theorem stays_of_challenged {fallback : AuthError} {tr : LoginTrace}
    {result : Except AuthError (Verdict U)} (h : ¬ c.Redirects ctx.request fallback)
    (hret : Prog.Returns (c.challenged ctx fallback) tr result) : AuthError.Stays result := by
  intro e he hredirect
  rw [he] at hret
  apply h
  unfold Redirects
  cases hlogin : c.loginFor ctx.request with
  | none =>
    rw [challenged_of_none hlogin] at hret
    obtain ⟨-, hsame⟩ := Prog.returns_ret_iff.mp hret
    rwa [← Except.error.inj hsame]
  | some login =>
    obtain ⟨redirect, hbegins, -⟩ := begins_of_challenged hlogin hret hredirect
    exact login.canBegin_iff.mpr ⟨tr, redirect, hbegins⟩

/-- A challenge that can redirect does, by a behaviour without a verification. -/
theorem Redirects.challenged {fallback : AuthError} (h : c.Redirects ctx.request fallback) :
    ∃ tr e, Prog.Returns (c.challenged ctx fallback) tr (.error e : Except AuthError (Verdict U))
      ∧ e.variant = .redirect ∧ ∀ token nonce a, ⟨.verifyIdToken token nonce, a⟩ ∉ tr := by
  unfold Redirects at h
  cases hlogin : c.loginFor ctx.request with
  | none =>
    rw [hlogin] at h
    rw [challenged_of_none hlogin]
    exact ⟨[], fallback, .ret _, h, by simp⟩
  | some login =>
    rw [hlogin] at h
    obtain ⟨tr, redirect, hbegins⟩ := login.canBegin_iff.mp h
    exact ⟨tr, _, challenged_of_begins hlogin hbegins fallback, rfl, hbegins.not_mem_verifyIdToken⟩

variable (c)

/-! ### Who is redirected

The session cookie is looked at before the credential is. A request is redirected for its cookie
whatever else it carries, and for having none only if it carries nothing at all. -/

variable [Principal U] [AuthScope S]

/-- **`authenticate`, unfolded**, case by case over the cookie and what becomes of it. -/
theorem run_authenticate (ctx : AuthContext S) :
    (c.authenticator.authenticate ctx : ExceptT AuthError LoginProg (Verdict U)).run
      = match ctx.request.cookie (AuthScope.sessionCookieName ctx.scope) with
        | none =>
          if !ctx.credential.isNone then .ret (.ok .notApplicable)
          else c.challenged ctx (.unauthenticated "no session cookie")
        | some raw => match c.codec.decode raw with
          | .error e => c.challenged ctx e
          | .ok session => .call (.verifyIdToken session.idToken .present) fun answer =>
            match answer with
            | .ok claims => .ret ((principalFrom "session identity conversion" claims).map
                .authenticated)
            | .error e => if e.status = 401 then c.challenged ctx e else .ret (.error e) := by
  unfold SessionAuthenticator.authenticate challenged
  cases ctx.request.cookie (AuthScope.sessionCookieName ctx.scope) with
  | none =>
    simp only
    cases ctx.credential.isNone with
    | false => rfl
    | true => exact Prog.run_liftM_bind _ _
  | some raw =>
    simp only [show c.authenticator.codec = c.codec from rfl]
    cases c.codec.decode raw with
    | error e => exact Prog.run_liftM_bind _ _
    | ok session =>
      simp only
      refine Prog.call_congr fun answer => ?_
      cases answer with
      | ok claims => exact Prog.run_mk_pure_bind_pure _ _
      | error e =>
        by_cases hstatus : e.status = 401
        · show ExceptT.run (if e.status = 401
              then liftM (c.authenticator.challenge ctx e) >>= throw else throw e) = _
          rw [if_pos hstatus]
          simp only [if_pos hstatus]
          exact Prog.run_liftM_bind _ _
        · show ExceptT.run (if e.status = 401
              then liftM (c.authenticator.challenge ctx e) >>= throw else throw e) = _
          rw [if_neg hstatus]
          simp only [if_neg hstatus]
          rfl

/-- Every verification was answered as the provider can answer it. -/
def Genuine (tr : LoginTrace) : Prop :=
  ∀ token nonce a, ⟨.verifyIdToken token nonce, a⟩ ∈ tr → c.provider.Verifies token nonce a

/-- The provider answers verifications with `verify`. -/
def Answers (verify : String → NonceCheck → Except AuthError IdentityClaims) (tr : LoginTrace) :
    Prop :=
  ∀ token nonce a, ⟨.verifyIdToken token nonce, a⟩ ∈ tr → a = verify token nonce

/-- What a session cookie is challenged for: it does not decode, or the provider refuses its token
as unauthorized. -/
def refusal (verify : String → NonceCheck → Except AuthError IdentityClaims) (raw : String) :
    Option AuthError :=
  match c.codec.decode raw with
  | .error e => some e
  | .ok session => match verify session.idToken .present with
    | .ok _ => none
    | .error e => if e.status = 401 then some e else none

variable {verify : String → NonceCheck → Except AuthError IdentityClaims}

/-- **A redirect into a login is one that `authorize` began**, and everything else was done before.
-/
theorem begins_of_authenticate {ctx : AuthContext S} {login : LoginService}
    (hlogin : c.loginFor ctx.request = some login) {tr : LoginTrace} {location : String}
    {cookies : List CookieDirective} (hgen : c.Genuine tr)
    (h : Prog.Returns (c.authenticator.authenticate ctx).run tr
      (.error (.redirect location cookies) : Except AuthError (Verdict U))) :
    ∃ tr' redirect, login.Begins (SessionAuthenticator.destination ctx.request) tr' redirect
      ∧ redirect.cookies = cookies := by
  -- whichever of the three challenges it was, the login is the same
  have hchallenged : ∀ fallback tr',
      Prog.Returns (c.challenged ctx fallback) tr'
        (.error (.redirect location cookies) : Except AuthError (Verdict U)) →
      ∃ tr' redirect, login.Begins (SessionAuthenticator.destination ctx.request) tr' redirect
        ∧ redirect.cookies = cookies := by
    intro fallback tr' hret
    obtain ⟨redirect, hbegins, he⟩ := begins_of_challenged hlogin hret rfl
    cases he
    exact ⟨tr', redirect, hbegins, rfl⟩
  rw [run_authenticate] at h
  cases hcookie : ctx.request.cookie (AuthScope.sessionCookieName ctx.scope) with
  | none =>
    rw [hcookie] at h
    by_cases hcred : (!ctx.credential.isNone) = true
    · rw [if_pos hcred] at h
      cases (Prog.returns_ret_iff.mp h).2
    · rw [if_neg hcred] at h
      exact hchallenged _ tr h
  | some raw =>
    rw [hcookie] at h
    cases hdecode : c.codec.decode raw with
    | error undecodable =>
      simp only [hdecode] at h
      exact hchallenged _ tr h
    | ok session =>
      simp only [hdecode] at h
      obtain ⟨answer, rest, rfl, hrest⟩ := Prog.returns_call_iff.mp h
      cases answer with
      | ok claims =>
        obtain ⟨-, hresult⟩ := Prog.returns_ret_iff.mp hrest
        exact absurd rfl (((stays_principalFrom _ claims).map _) _ hresult.symm)
      | error e =>
        by_cases hstatus : e.status = 401
        · simp only [if_pos hstatus] at hrest
          exact hchallenged _ rest hrest
        · -- any other failure is passed on, and a verification never fails with a redirect
          simp only [if_neg hstatus] at hrest
          obtain ⟨-, hresult⟩ := Prog.returns_ret_iff.mp hrest
          have hverifies := hgen session.idToken .present (.error e) List.mem_cons_self
          have hvariant := ProviderService.variant_of_verifies hverifies
          rw [← Except.error.inj hresult] at hvariant
          exact absurd rfl hvariant

/-- A cookie that is refused is challenged, whatever the credential. -/
theorem returns_of_refusal {ctx : AuthContext S} {raw : String}
    (hcookie : ctx.request.cookie (AuthScope.sessionCookieName ctx.scope) = some raw) {e : AuthError}
    (hrefusal : c.refusal verify raw = some e) {tr : LoginTrace}
    {result : Except AuthError (Verdict U)} (hret : Prog.Returns (c.challenged ctx e) tr result)
    (hnone : ∀ token nonce a, ⟨.verifyIdToken token nonce, a⟩ ∉ tr) :
    ∃ tr', Prog.Returns (c.authenticator.authenticate ctx).run tr' result ∧ Answers verify tr' := by
  rw [run_authenticate, hcookie]
  unfold refusal at hrefusal
  cases hdecode : c.codec.decode raw with
  | error undecodable =>
    simp only [hdecode] at hrefusal ⊢
    rw [← Option.some.inj hrefusal] at hret
    exact ⟨tr, hret, fun token nonce a hmem => absurd hmem (hnone token nonce a)⟩
  | ok session =>
    simp only [hdecode] at hrefusal ⊢
    cases hanswer : verify session.idToken .present with
    | ok claims => simp [hanswer] at hrefusal
    | error refused =>
      rw [hanswer] at hrefusal
      by_cases hstatus : refused.status = 401
      · simp only [if_pos hstatus] at hrefusal
        rw [← Option.some.inj hrefusal] at hret
        -- the refused verification, and then the challenge
        refine ⟨⟨.verifyIdToken session.idToken .present, .error refused⟩ :: tr, .call ?_, ?_⟩
        · simp only [if_pos hstatus]
          exact hret
        · intro token nonce a hmem
          rcases List.mem_cons.mp hmem with hmem | hmem
          · cases hmem
            exact hanswer.symm
          · exact absurd hmem (hnone token nonce a)
      · simp [hstatus] at hrefusal

/-- **What a session cookie can come to**: a challenge of its refusal, or no redirect. -/
theorem stays_or_refused
    (hverify : ∀ token nonce, c.provider.Verifies token nonce (verify token nonce))
    {ctx : AuthContext S} {raw : String}
    (hcookie : ctx.request.cookie (AuthScope.sessionCookieName ctx.scope) = some raw)
    {tr : LoginTrace} {result : Except AuthError (Verdict U)}
    (hret : Prog.Returns (c.authenticator.authenticate ctx).run tr result)
    (hans : Answers verify tr) :
    AuthError.Stays result
      ∨ ∃ e tr', c.refusal verify raw = some e ∧ Prog.Returns (c.challenged ctx e) tr' result := by
  rw [run_authenticate, hcookie] at hret
  unfold refusal
  cases hdecode : c.codec.decode raw with
  | error undecodable =>
    simp only [hdecode] at hret ⊢
    exact .inr ⟨undecodable, tr, rfl, hret⟩
  | ok session =>
    simp only [hdecode] at hret ⊢
    obtain ⟨answer, rest, rfl, hrest⟩ := Prog.returns_call_iff.mp hret
    rw [← show answer = verify session.idToken .present from hans _ _ _ List.mem_cons_self]
    cases hanswer : answer with
    | ok claims =>
      rw [hanswer] at hrest
      obtain ⟨-, rfl⟩ := Prog.returns_ret_iff.mp hrest
      exact .inl ((stays_principalFrom _ claims).map _)
    | error e =>
      rw [hanswer] at hrest
      by_cases hstatus : e.status = 401
      · simp only [if_pos hstatus] at hrest ⊢
        exact .inr ⟨e, rest, rfl, hrest⟩
      · simp only [if_neg hstatus] at hrest
        obtain ⟨-, rfl⟩ := Prog.returns_ret_iff.mp hrest
        have hverifies := hverify session.idToken .present
        rw [← hans _ _ _ List.mem_cons_self, hanswer] at hverifies
        exact .inl (AuthError.stays_error_iff.mpr (ProviderService.variant_of_verifies hverifies))

/-- **A request that carries a credential is never redirected** exactly when it carries no session
cookie, or one that is not refused, or its refusal does not lead to a login. -/
theorem never_redirects_iff
    (hverify : ∀ token nonce, c.provider.Verifies token nonce (verify token nonce))
    {ctx : AuthContext S} (hcred : ctx.credential ≠ .none) :
    (∀ tr (result : Except AuthError (Verdict U)),
        Prog.Returns (c.authenticator.authenticate ctx).run tr result → Answers verify tr →
        AuthError.Stays result)
      ↔ ∀ raw e, ctx.request.cookie (AuthScope.sessionCookieName ctx.scope) = some raw →
        c.refusal verify raw = some e → ¬ c.Redirects ctx.request e := by
  constructor
  · intro h raw e hcookie hrefusal hredirects
    -- a login that can begin does begin in some run
    obtain ⟨tr, e', hret, he', hnone⟩ := hredirects.challenged (U := U)
    obtain ⟨tr', hret', hans⟩ := c.returns_of_refusal hcookie hrefusal hret hnone
    exact h tr' _ hret' hans e' rfl he'
  · intro h tr result hret hans
    cases hcookie : ctx.request.cookie (AuthScope.sessionCookieName ctx.scope) with
    | none =>
      -- the one branch of the source that looks at the credential
      have hsome : ctx.credential.isNone = false := by
        rw [← Bool.not_eq_true, Credential.isNone_iff]
        exact hcred
      rw [run_authenticate] at hret
      simp only [hcookie, hsome] at hret
      obtain ⟨-, rfl⟩ := Prog.returns_ret_iff.mp hret
      exact AuthError.stays_ok _
    | some raw =>
      rcases c.stays_or_refused hverify hcookie hret hans with hstays | ⟨e, tr', hrefusal, hret'⟩
      · exact hstays
      · exact stays_of_challenged (h raw e hcookie hrefusal) hret'

/-! ### An API client with a session cookie

A request with an API key and a session cookie that has been emptied, which does not decode. -/

/-- A session authenticator that redirects into logins as the crate configures and serialises
them. -/
def bareSession : SessionService where
  config := (LoginService.bareLogin .json).config
  lib := LoginService.bareLibrary
  codec := idTokenCodec
  login := some (LoginService.bareLogin .json)

/-- A request with an API key and an emptied session cookie. -/
def apiRequest (method : String) : AuthContext NoScope where
  request := ((({} : AuthRequestBuilder).method method).path "/config" |>.cookie "session" "").build
  credential := .bearer "sptok_key"
  scope := .noScope

/-- Nothing is parsed. -/
def refusing : OpenIdConnect :=
  { LoginService.bareLibrary with parseIdToken := fun _ => .error "invalid compact serialization" }

/-- The same request with another method stays where it is. -/
theorem postedKey_stays :
    (apiRequest "POST").credential ≠ .none
      ∧ ∀ tr (result : Except AuthError (Verdict User)),
        Prog.Returns (({ bareSession with lib := refusing } : SessionService).authenticator.authenticate
          (apiRequest "POST")).run tr result →
        Answers (fun _ _ => .error
          (.invalidCredential "malformed id token: invalid compact serialization")) tr →
        AuthError.Stays result := by
  have hcred : (apiRequest "POST").credential ≠ .none := fun h => nomatch h
  refine ⟨hcred, (never_redirects_iff _ ?_ hcred).mpr ?_⟩
  · intro token nonce
    refine ⟨[], .ret _, ?_⟩
    simp
  · intro raw e hcookie hrefusal
    have hraw : raw = "" := by
      have hempty : (apiRequest "POST").request.cookie "session" = some "" :=
        AuthRequestBuilder.cookie_build_self _ _ _
      exact Option.some.inj (hcookie.symm.trans hempty)
    rw [hraw] at hrefusal
    have hredirects : ¬ e.variant = .redirect := by
      rw [← Option.some.inj hrefusal]
      exact fun h => nomatch h
    have hlogin : ({ bareSession with lib := refusing } : SessionService).loginFor
        (apiRequest "POST").request = none := if_neg (by decide +kernel)
    unfold Redirects
    rw [hlogin]
    exact hredirects

/-- **An API client is sent to sign in**: the session cookie is looked at first, and the key not at
all. -/
theorem bearer_redirected :
    ¬ ∀ tr (result : Except AuthError (Verdict User)),
      Prog.Returns (bareSession.authenticator.authenticate (apiRequest "GET")).run tr result →
      bareSession.Genuine tr → AuthError.Stays result := by
  intro h
  have hbegin : bareSession.Redirects (apiRequest "GET").request
      (.unauthenticated "empty session cookie") := by
    have hlogin : bareSession.loginFor (apiRequest "GET").request
        = some (LoginService.bareLogin .json) :=
      if_pos (by decide +kernel)
    unfold Redirects
    rw [hlogin]
    exact ⟨by decide +kernel, some ("ch", "v"), "c", "n", _, rfl, by rfl⟩
  obtain ⟨tr, e, hret, he, hnone⟩ := hbegin.challenged (U := User)
  have hcookie : (apiRequest "GET").request.cookie (AuthScope.sessionCookieName NoScope.noScope)
      = some "" := AuthRequestBuilder.cookie_build_self _ _ _
  have hrun := bareSession.run_authenticate (U := User) (apiRequest "GET")
  rw [hcookie] at hrun
  refine h tr (.error e) ?_ ?_ e rfl he
  · rw [hrun]
    exact hret
  · intro token nonce a hmem
    exact absurd hmem (hnone token nonce a)

end SessionService

end AuthnKit
