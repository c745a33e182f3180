import AuthnKit.Oidc.Login
import AuthnKit.Oidc.ProviderRuns

/-!
# AuthnKit — the behaviours of a login

A login flow over a provider, with its effects as operations. To the flow, `verify_id_token` is
one operation; what it can answer is what the provider's own program can return
(`ProviderService.Verifies`).

* **`Begins`**, **`Completes`** — the behaviours of `authorize` and `complete` that succeed, and
  what they then return.
* **`check`** — what `complete` checks before it does anything: where that fails, it does nothing.
-/

namespace AuthnKit

/-! ## Operations

What the flow does besides computing: it looks at the provider's snapshot, draws random texts, sends
a token request and has a token verified. -/

inductive LoginOp where
  | snapshot
  | requestAsync (request : TokenRequest)
  | verifyIdToken (token : String) (nonce : NonceCheck)
  | newRandomSha256
  | csrfNewRandom
  | nonceNewRandom

abbrev LoginOp.Answer : LoginOp → Type
  | snapshot => ProviderState
  | requestAsync _ => Except RequestTokenError TokenResponse
  | verifyIdToken _ _ => Except AuthError IdentityClaims
  | newRandomSha256 => String × String
  | csrfNewRandom => String
  | nonceNewRandom => String

abbrev LoginProg := Prog LoginOp LoginOp.Answer

abbrev LoginTrace := List (Σ op : LoginOp, op.Answer)

namespace LoginProg

def ask (op : LoginOp) : LoginProg op.Answer := Prog.perform op

def provider (config : OidcConfig) (lib : OpenIdConnect) : ProviderHandle LoginProg where
  config := config
  lib := lib
  snapshot := ask .snapshot
  verifyIdToken token nonce := ExceptT.mk (ask (.verifyIdToken token nonce))
  requestAsync request := ask (.requestAsync request)

def ops : LoginOps LoginProg where
  newRandomSha256 := ask .newRandomSha256
  csrfNewRandom := ask .csrfNewRandom
  nonceNewRandom := ask .nonceNewRandom

end LoginProg

/-! ## What verification can answer

Verification is one operation here and a program of its own in the provider. What it can answer is
what that program can return. -/

/-- The provider's program returns this, against anything behind it, where the library has applied
the nonce check to every token it accepted. -/
def ProviderService.Verifies (c : ProviderService) (token : String) (nonce : NonceCheck)
    (a : Except AuthError IdentityClaims) : Prop :=
  ∃ tr, Prog.Returns (c.provider.verifyIdToken token nonce).run tr a
    ∧ ∀ idToken client verifier claims,
      ⟨.idTokenClaims idToken client verifier, .ok claims⟩ ∈ tr → verifier claims.nonce = .ok ()

/-- Verification as one of the calls on the provider: what it can return, the call can. -/
theorem ProviderService.returns_body {c : ProviderService} {token : String} {nonce : NonceCheck}
    {tr : List (Σ op : ProviderOp, op.Answer)} {a : Except AuthError IdentityClaims}
    (h : Prog.Returns (c.provider.verifyIdToken token nonce).run tr a) :
    Prog.Returns (c.body (.verifyIdToken token nonce)) tr (a.map some) := by
  show Prog.Returns (c.provider.verifyIdToken token nonce >>= fun claims =>
    pure (some claims)).run tr (a.map some)
  rw [ExceptT.run_bind]
  refine Prog.returns_bind_iff.mpr ⟨tr, a, [], (List.append_nil tr).symm, h, ?_⟩
  cases a with
  | ok claims => exact .ret _
  | error e => exact .ret _

theorem ProviderService.variant_of_verifies {c : ProviderService} {token : String}
    {nonce : NonceCheck} {e : AuthError} (h : c.Verifies token nonce (.error e)) :
    e.variant ≠ .redirect := by
  obtain ⟨tr, hret, -⟩ := h
  exact (c.ends_body _).of_returns (returns_body hret) e rfl

/-- An attempt that ends in claims was answered with them, or went on after a failure. -/
theorem ProviderService.returns_attempt {c : ProviderService} {idToken : IdToken}
    {nonce : NonceCheck} {k : Except ClaimsVerificationError IdTokenClaims →
      ProviderProg (Except AuthError (Option IdentityClaims))}
    {tr : List (Σ op : ProviderOp, op.Answer)} {a : Except AuthError (Option IdentityClaims)}
    (h : Prog.Returns (c.attempt idToken nonce k) tr a) :
    ∃ state answer tr', tr = ⟨.read, state⟩
        :: ⟨.idTokenClaims idToken state.value.client (nonce.verifier c.lib), answer⟩ :: tr'
      ∧ Prog.Returns (k answer) tr' a := by
  obtain ⟨state, tr₁, rfl, h₁⟩ := Prog.returns_call_iff.mp h
  obtain ⟨answer, tr₂, rfl, h₂⟩ := Prog.returns_call_iff.mp h₁
  exact ⟨state, answer, tr₂, rfl, h₂⟩

/-- **A token is verified** when it parses and the library accepts its claims, nonce included: with
the keys at hand or, once, with fresh ones. -/
theorem ProviderService.verifies_ok_iff {c : ProviderService} {token : String} {nonce : NonceCheck}
    {claims : IdentityClaims} :
    c.Verifies token nonce (.ok claims)
      ↔ ∃ idToken accepted, c.lib.parseIdToken token = .ok idToken
        ∧ nonce.verifier c.lib accepted.nonce = .ok ()
        ∧ claims = identityFromIdTokenClaims accepted := by
  constructor
  · rintro ⟨tr, hret, hnonce⟩
    have hbody : Prog.Returns (c.body (.verifyIdToken token nonce)) tr (.ok (some claims)) :=
      returns_body hret
    rw [body_eq] at hbody
    simp only at hbody
    cases hparse : c.lib.parseIdToken token with
    | error e =>
      rw [hparse] at hbody
      cases (Prog.returns_ret_iff.mp hbody).2
    | ok idToken =>
      rw [hparse] at hbody
      obtain ⟨state, first, tr₁, rfl, h₁⟩ := returns_attempt hbody
      cases first with
      | ok accepted =>
        obtain ⟨_, hclaims⟩ := Prog.returns_ret_iff.mp h₁
        exact ⟨idToken, accepted, rfl, hnonce idToken state.value.client _ accepted (by simp),
          Option.some.inj (Except.ok.inj hclaims)⟩
      | error error =>
        by_cases hstale : (!isPossiblyStaleKeys error) = true
        · simp only [if_pos hstale] at h₁
          cases (Prog.returns_ret_iff.mp h₁).2
        · -- the second attempt
          simp only [if_neg hstale] at h₁
          obtain ⟨tr₂, result, tr₃, rfl, -, h₂⟩ := Prog.returns_bind_iff.mp h₁
          cases result with
          | error e => cases (Prog.returns_ret_iff.mp h₂).2
          | ok u =>
            obtain ⟨state', second, tr₄, rfl, h₃⟩ := returns_attempt h₂
            obtain ⟨_, hclaims⟩ := Prog.returns_ret_iff.mp h₃
            cases second with
            | error e => cases hclaims
            | ok accepted =>
              exact ⟨idToken, accepted, rfl, hnonce idToken state'.value.client _ accepted (by simp),
                Option.some.inj (Except.ok.inj hclaims)⟩
  · rintro ⟨idToken, accepted, hparse, hnonce, rfl⟩
    -- any snapshot will do
    let state : Arc ProviderState := ⟨0, c.stateOf ⟨"", none, none, []⟩ ⟨0, Instant.zero_lt_max⟩⟩
    refine ⟨[⟨.read, state⟩,
      ⟨.idTokenClaims idToken state.value.client (nonce.verifier c.lib), .ok accepted⟩], ?_, ?_⟩
    · unfold OidcProvider.verifyIdToken
      rw [show c.provider.lib = c.lib from rfl, hparse]
      exact .call (.call (.ret _))
    · intro idToken' client verifier claims hmem
      simp only [List.mem_cons, List.not_mem_nil, or_false] at hmem
      rcases hmem with hmem | hmem
      · cases hmem
      · cases hmem
        exact hnonce

/-! ## The flow -/

/-- How a login flow is configured. -/
structure LoginService where
  config : OidcConfig
  lib : OpenIdConnect
  serde : ProtectionSerde
  codec : SessionCodec
  session : CookieSettings
  protection : CookieSettings
  redirectPolicy : RedirectPolicy

namespace LoginService

variable (c : LoginService)

def flow : LoginFlow LoginProg where
  provider := LoginProg.provider c.config c.lib
  ops := LoginProg.ops
  serde := c.serde
  codec := c.codec
  session := c.session
  protection := c.protection
  redirectPolicy := c.redirectPolicy

/-- The provider the flow verifies its tokens with. -/
def provider : ProviderService := ⟨c.config, c.lib⟩

/-- Every verification of the behaviour was answered as the provider can answer it. -/
def Genuine (tr : LoginTrace) : Prop :=
  ∀ token nonce a, ⟨.verifyIdToken token nonce, a⟩ ∈ tr → c.provider.Verifies token nonce a

/-! ### Beginning

From the destination to the redirect: which texts are drawn, what is put into the cookie and into
the authorization URL. -/

/-- The draw of a PKCE pair, when PKCE is on. -/
def draws : Option (String × String) → LoginTrace
  | none => []
  | some pair => [⟨.newRandomSha256, pair⟩]

def protectionOf (pkce : Option (String × String)) (csrf nonce destination : String) :
    ProtectionData :=
  ⟨csrf, nonce, pkce.map (·.2), destination⟩

def requestOf (state : ProviderState) (pkce : Option (String × String)) (csrf nonce : String) :
    AuthorizationRequest :=
  ⟨state.client, csrf, nonce, c.config.scopes, pkce.map (·.1)⟩

/-- **`authorize` succeeds**, with what it has drawn and what it returns. -/
inductive Begins (destination : String) : LoginTrace → AuthorizationRedirect → Prop where
  | intro (state : ProviderState) (pkce : Option (String × String)) (csrf nonce value : String)
      (hvalid : c.redirectPolicy.validate destination = .ok ())
      (hpkce : pkce.isSome = c.config.usePkce)
      (hvalue : (protectionOf pkce csrf nonce destination).encode c.serde = .ok value) :
      Begins destination
        (⟨.snapshot, state⟩ :: draws pkce ++ [⟨.csrfNewRandom, csrf⟩, ⟨.nonceNewRandom, nonce⟩])
        ⟨c.lib.authorizeUrl (c.requestOf state pkce csrf nonce),
          [c.protection.set value, c.session.clear]⟩

/-- The end of `authorize`, once everything is drawn. -/
def redirectOf (destination : String) (state : ProviderState) (pkce : Option (String × String))
    (csrf nonce : String) : Except AuthError AuthorizationRedirect :=
  ((protectionOf pkce csrf nonce destination).encode c.serde).map fun value =>
    ⟨c.lib.authorizeUrl (c.requestOf state pkce csrf nonce),
      [c.protection.set value, c.session.clear]⟩

/-- From the draw of the PKCE pair on. -/
def drawn (destination : String) (state : ProviderState) (pkce : Option (String × String)) :
    LoginProg (Except AuthError AuthorizationRedirect) :=
  .call .csrfNewRandom fun csrf => .call .nonceNewRandom fun nonce =>
    .ret (c.redirectOf destination state pkce csrf nonce)

/-- **`authorize`, unfolded**: the destination is validated, the snapshot is read, and a PKCE pair
is drawn if it is on. -/
theorem run_authorize (destination : String) :
    (c.flow.authorize destination).run = match c.redirectPolicy.validate destination with
      | .error e => .ret (.error e)
      | .ok () => .call .snapshot fun state =>
          if c.config.usePkce then .call .newRandomSha256 fun pair => c.drawn destination state (some pair)
          else c.drawn destination state none := by
  unfold LoginFlow.authorize
  rw [show c.flow.redirectPolicy = c.redirectPolicy from rfl]
  cases c.redirectPolicy.validate destination with
  | error e => rfl
  | ok u =>
    refine Prog.call_congr fun state => ?_
    by_cases hpkce : c.config.usePkce = true
    · rw [if_pos hpkce, show c.flow.provider.config.usePkce = true from hpkce]
      refine Prog.call_congr fun pair => Prog.call_congr fun csrf => Prog.call_congr fun nonce => ?_
      exact Prog.run_mk_pure_bind_pure _ _
    · have hoff : c.flow.provider.config.usePkce = false := eq_false_of_ne_true hpkce
      rw [if_neg hpkce, hoff]
      refine Prog.call_congr fun csrf => Prog.call_congr fun nonce => ?_
      exact Prog.run_mk_pure_bind_pure _ _

/-- The redirect, once everything is drawn: it exists exactly when the secrets can be serialised. -/
theorem redirectOf_eq_ok_iff {destination : String} {state : ProviderState}
    {pkce : Option (String × String)} {csrf nonce : String} {redirect : AuthorizationRedirect} :
    c.redirectOf destination state pkce csrf nonce = .ok redirect
      ↔ ∃ value, (protectionOf pkce csrf nonce destination).encode c.serde = .ok value
        ∧ redirect = ⟨c.lib.authorizeUrl (c.requestOf state pkce csrf nonce),
          [c.protection.set value, c.session.clear]⟩ := by
  unfold redirectOf
  cases hvalue : (protectionOf pkce csrf nonce destination).encode c.serde with
  | error e => exact iff_of_false (fun h => nomatch h) (by simp)
  | ok value =>
    constructor
    · intro h
      exact ⟨value, rfl, (Except.ok.inj h).symm⟩
    · rintro ⟨value', hvalue', rfl⟩
      obtain rfl := Except.ok.inj hvalue'
      rfl

/-- The end of `authorize` draws two texts, and serialises what it has drawn. -/
theorem returns_drawn_iff {destination : String} {state : ProviderState}
    {pkce : Option (String × String)} {tr : LoginTrace} {redirect : AuthorizationRedirect} :
    Prog.Returns (c.drawn destination state pkce) tr (.ok redirect)
      ↔ ∃ csrf nonce, tr = [⟨.csrfNewRandom, csrf⟩, ⟨.nonceNewRandom, nonce⟩]
        ∧ c.redirectOf destination state pkce csrf nonce = .ok redirect := by
  constructor
  · intro h
    obtain ⟨csrf, tr₁, rfl, h₁⟩ := Prog.returns_call_iff.mp h
    obtain ⟨nonce, tr₂, rfl, h₂⟩ := Prog.returns_call_iff.mp h₁
    obtain ⟨rfl, hredirect⟩ := Prog.returns_ret_iff.mp h₂
    exact ⟨csrf, nonce, rfl, hredirect.symm⟩
  · rintro ⟨csrf, nonce, rfl, hredirect⟩
    exact .call (.call (Prog.returns_ret_iff.mpr ⟨rfl, hredirect.symm⟩))

/-- **What a login that begins has drawn, and where it sends the browser**, as an equivalence: the
specification of `authorize` for all that follows. -/
theorem returns_authorize_iff {destination : String} {tr : LoginTrace}
    {redirect : AuthorizationRedirect} :
    Prog.Returns (c.flow.authorize destination).run tr (.ok redirect)
      ↔ c.Begins destination tr redirect := by
  rw [run_authorize]
  constructor
  · intro h
    cases hvalid : c.redirectPolicy.validate destination with
    | error e =>
      rw [hvalid] at h
      cases (Prog.returns_ret_iff.mp h).2
    | ok u =>
      rw [hvalid] at h
      obtain ⟨state, tr₁, rfl, h₁⟩ := Prog.returns_call_iff.mp h
      -- from here on it is the same with PKCE and without
      have hend : ∀ pkce tr₂, pkce.isSome = c.config.usePkce →
          Prog.Returns (c.drawn destination state pkce) tr₂ (.ok redirect) →
          c.Begins destination (⟨.snapshot, state⟩ :: (draws pkce ++ tr₂)) redirect := by
        intro pkce tr₂ hpkce h₂
        obtain ⟨csrf, nonce, rfl, hredirect⟩ := c.returns_drawn_iff.mp h₂
        obtain ⟨value, hvalue, rfl⟩ := c.redirectOf_eq_ok_iff.mp hredirect
        exact .intro state pkce csrf nonce value hvalid hpkce hvalue
      by_cases hpkce : c.config.usePkce = true
      · rw [if_pos hpkce] at h₁
        obtain ⟨pair, tr₂, rfl, h₂⟩ := Prog.returns_call_iff.mp h₁
        exact hend (some pair) tr₂ hpkce.symm h₂
      · rw [if_neg hpkce] at h₁
        exact hend none tr₁ (eq_false_of_ne_true hpkce).symm h₁
  · intro h
    obtain ⟨state, pkce, csrf, nonce, value, hvalid, hpkce, hvalue⟩ := h
    have hend : Prog.Returns (c.drawn destination state pkce) _ _ := c.returns_drawn_iff.mpr
      ⟨csrf, nonce, rfl, c.redirectOf_eq_ok_iff.mpr ⟨value, hvalue, rfl⟩⟩
    rw [hvalid]
    refine .call ?_
    cases pkce with
    | some pair =>
      rw [if_pos (show c.config.usePkce = true from hpkce.symm)]
      exact .call hend
    | none =>
      rw [if_neg (by rw [← hpkce]; decide)]
      exact hend

theorem Begins.not_mem_verifyIdToken {c : LoginService} {destination : String} {tr : LoginTrace}
    {redirect : AuthorizationRedirect} (h : c.Begins destination tr redirect) (token : String)
    (nonce : NonceCheck) (a : Except AuthError IdentityClaims) :
    ⟨.verifyIdToken token nonce, a⟩ ∉ tr := by
  cases h with
  | intro state pkce => cases pkce <;> simp [draws]

/-- **A login can begin**: its destination is allowed, and something it may draw is serialised. -/
def CanBegin (destination : String) : Prop :=
  c.redirectPolicy.validate destination = .ok ()
    ∧ ∃ pkce csrf nonce value, Option.isSome pkce = c.config.usePkce
      ∧ (protectionOf pkce csrf nonce destination).encode c.serde = .ok value

/-- A login can begin exactly when it does with some answers. -/
theorem canBegin_iff {destination : String} :
    c.CanBegin destination ↔ ∃ tr redirect, c.Begins destination tr redirect := by
  constructor
  · intro ⟨hvalid, pkce, csrf, nonce, value, hpkce, hvalue⟩
    -- any snapshot will do
    exact ⟨_, _, .intro (c.provider.stateOf ⟨"", none, none, []⟩ ⟨0, Instant.zero_lt_max⟩)
      pkce csrf nonce value hvalid hpkce hvalue⟩
  · intro ⟨tr, redirect, h⟩
    cases h with
    | intro state pkce csrf nonce value hvalid hpkce hvalue =>
      exact ⟨hvalid, pkce, csrf, nonce, value, hpkce, hvalue⟩

/-- A login that does not begin reports an error of its own, and does not redirect. -/
theorem ends_authorize (destination : String) :
    Prog.Ends AuthError.Stays (c.flow.authorize destination).run := by
  have hdrawn : ∀ state pkce, Prog.Ends AuthError.Stays (c.drawn destination state pkce) := by
    intro state pkce
    refine .call fun csrf => .call fun nonce => .ret ?_
    apply AuthError.Stays.map
    unfold ProtectionData.encode
    cases c.serde.toVec (protectionOf pkce csrf nonce destination) with
    | ok json => exact AuthError.stays_ok _
    | error e => exact AuthError.stays_error_iff.mpr fun h => nomatch h
  have hvalid : AuthError.Stays (c.redirectPolicy.validate destination) := by
    unfold RedirectPolicy.validate RedirectPolicy.rejected
    repeat' split
    all_goals first
      | exact AuthError.stays_ok ()
      | exact AuthError.stays_error_iff.mpr fun h => nomatch h
  rw [run_authorize]
  cases hvalidate : c.redirectPolicy.validate destination with
  | error e => exact .ret (AuthError.stays_error_iff.mpr (hvalid e hvalidate))
  | ok u =>
    refine .call fun state => ?_
    split
    · exact .call fun pair => hdrawn state (some pair)
    · exact hdrawn state none

/-! ### Completing

From the callback to the session: what is compared before anything is done, and what is done then.
-/

/-- What `complete` checks before it does anything: the code to exchange, and the protection data
of the attempt. -/
def check (callback : CallbackParams) (cookie : Option String) :
    Except AuthError (String × ProtectionData) :=
  match callback with
  | .failure error description => .error (LoginFlow.callbackFailure error description)
  | .success code returnedState => match cookie with
    | none => .error (.unauthenticated "protection cookie is missing")
    | some raw => match ProtectionData.decode c.serde raw with
      | .error e => .error e
      | .ok protection =>
        if returnedState ≠ protection.csrf then
          .error (.unauthenticated "callback state does not match the protection cookie")
        else .ok (code, protection)

/-- **Admitted** is a callback that reports no error and returns the state in the cookie. -/
theorem check_eq_ok_iff {callback : CallbackParams} {cookie : Option String} {code : String}
    {protection : ProtectionData} :
    c.check callback cookie = .ok (code, protection)
      ↔ callback = .success code protection.csrf
        ∧ ∃ raw, cookie = some raw ∧ ProtectionData.decode c.serde raw = .ok protection := by
  unfold check
  cases callback with
  | failure error description => simp
  | success code' state =>
    cases cookie with
    | none => simp
    | some raw =>
      cases hdecode : ProtectionData.decode c.serde raw with
      | error e => simp [hdecode]
      | ok protection' =>
        simp only [hdecode]
        by_cases hstate : state ≠ protection'.csrf
        · rw [if_pos hstate]
          constructor
          · intro h
            cases h
          · rintro ⟨hcallback, raw', hraw, hdecode'⟩
            cases hraw
            cases hcallback
            cases hdecode.symm.trans hdecode'
            exact absurd rfl hstate
        · rw [if_neg hstate]
          constructor
          · intro h
            cases h
            exact ⟨by rw [not_not.mp hstate], raw, rfl, hdecode⟩
          · rintro ⟨hcallback, raw', hraw, hdecode'⟩
            cases hraw
            cases hcallback
            cases hdecode.symm.trans hdecode'
            rfl

def tokenRequestOf (state : ProviderState) (code : String) (protection : ProtectionData) :
    TokenRequest :=
  ⟨state.client, .authorizationCode code, [], protection.pkceVerifier⟩

/-- The end of `complete`, once the token is verified. -/
def completeOf (protection : ProtectionData) (idToken : IdToken) (claims : IdentityClaims) :
    Except AuthError LoginComplete :=
  (c.codec.encode ⟨idToken.text, claims.expiresAt⟩).map fun value =>
    ⟨claims, protection.destination, [c.session.set value, c.protection.clear]⟩

/-- From the request at the token endpoint on. -/
def exchanged (code : String) (protection : ProtectionData) (state : ProviderState) :
    LoginProg (Except AuthError LoginComplete) :=
  .call (.requestAsync (tokenRequestOf state code protection)) fun answer => match answer with
    | .error e => .ret (.error e.toAuthError)
    | .ok response => match response.idToken with
      | none => .ret (.error (.upstream "token response carried no id_token"))
      | some idToken => .call (.verifyIdToken idToken.text (.matches protection.nonce))
        fun answer => match answer with
          | .error e => .ret (.error e)
          | .ok claims => .ret (c.completeOf protection idToken claims)

/-- **`complete`, unfolded**: first what can be checked without the provider, then the exchange, if
there is a token endpoint. -/
theorem run_complete (callback : CallbackParams) (cookie : Option String) :
    (c.flow.complete callback cookie).run = match c.check callback cookie with
      | .error e => .ret (.error e)
      | .ok (code, protection) => .call .snapshot fun state =>
          match state.client.metadata.tokenEndpoint with
          | some _ => c.exchanged code protection state
          | none => .ret (.error (.internal
              ("provider advertises no token endpoint: " ++ c.lib.missingTokenUrl))) := by
  unfold LoginFlow.complete check
  cases callback with
  | failure error description => rfl
  | success code returnedState =>
    cases cookie with
    | none => rfl
    | some raw =>
      simp only
      rw [show c.flow.serde = c.serde from rfl]
      cases ProtectionData.decode c.serde raw with
      | error e => rfl
      | ok protection =>
        by_cases hstate : returnedState ≠ protection.csrf
        · rw [Prog.run_mk_bind, pure_bind]
          simp only [if_pos hstate]
          rfl
        · rw [Prog.run_mk_bind, pure_bind]
          simp only [if_neg hstate]
          rw [Prog.run_liftM_bind]
          refine Prog.call_congr fun state => ?_
          show (ExceptT.mk (pure _) >>= _ : ExceptT AuthError LoginProg LoginComplete).run = _
          rw [Prog.run_mk_bind, pure_bind]
          unfold OidcClient.exchange
          cases state.client.metadata.tokenEndpoint with
          | none => rfl
          | some endpoint =>
            simp only
            rw [Prog.run_liftM_bind]
            refine Prog.call_congr fun answer => ?_
            cases answer with
            | error e => rfl
            | ok response =>
              obtain ⟨expiresIn, idToken⟩ := response
              cases idToken with
              | none => rfl
              | some idToken =>
                refine Prog.call_congr fun answer => ?_
                cases answer with
                | error e => rfl
                | ok claims => exact Prog.run_mk_pure_bind_pure _ _

/-- **`complete` succeeds**: the callback was admitted, its code exchanged and the ID token of the
answer verified with the nonce of the attempt. -/
inductive Completes (callback : CallbackParams) (cookie : Option String) :
    LoginTrace → LoginComplete → Prop where
  | intro (code : String) (protection : ProtectionData) (state : ProviderState)
      (response : TokenResponse) (idToken : IdToken) (claims : IdentityClaims) (value : String)
      (hcheck : c.check callback cookie = .ok (code, protection))
      (hendpoint : state.client.metadata.tokenEndpoint.isSome)
      (hid : response.idToken = some idToken)
      (hvalue : c.codec.encode ⟨idToken.text, claims.expiresAt⟩ = .ok value) :
      Completes callback cookie
        [⟨.snapshot, state⟩, ⟨.requestAsync (tokenRequestOf state code protection), .ok response⟩,
          ⟨.verifyIdToken idToken.text (.matches protection.nonce), .ok claims⟩]
        ⟨claims, protection.destination, [c.session.set value, c.protection.clear]⟩

/-- The session, once the token is verified: it exists exactly when the codec can encode it. -/
theorem completeOf_eq_ok_iff {protection : ProtectionData} {idToken : IdToken}
    {claims : IdentityClaims} {done : LoginComplete} :
    c.completeOf protection idToken claims = .ok done
      ↔ ∃ value, c.codec.encode ⟨idToken.text, claims.expiresAt⟩ = .ok value
        ∧ done = ⟨claims, protection.destination, [c.session.set value, c.protection.clear]⟩ := by
  unfold completeOf
  cases hvalue : c.codec.encode ⟨idToken.text, claims.expiresAt⟩ with
  | error e => exact iff_of_false (fun h => nomatch h) (by simp)
  | ok value =>
    constructor
    · intro h
      exact ⟨value, rfl, (Except.ok.inj h).symm⟩
    · rintro ⟨value', hvalue', rfl⟩
      obtain rfl := Except.ok.inj hvalue'
      rfl

/-- The exchange has an answer that carries an ID token, and the token is verified with the nonce of
the attempt. -/
theorem returns_exchanged_iff {code : String} {protection : ProtectionData} {state : ProviderState}
    {tr : LoginTrace} {done : LoginComplete} :
    Prog.Returns (c.exchanged code protection state) tr (.ok done)
      ↔ ∃ response idToken claims, response.idToken = some idToken
        ∧ tr = [⟨.requestAsync (tokenRequestOf state code protection), .ok response⟩,
          ⟨.verifyIdToken idToken.text (.matches protection.nonce), .ok claims⟩]
        ∧ c.completeOf protection idToken claims = .ok done := by
  constructor
  · intro h
    obtain ⟨answer, tr₁, rfl, h₁⟩ := Prog.returns_call_iff.mp h
    cases answer with
    | error e => cases (Prog.returns_ret_iff.mp h₁).2
    | ok response =>
      cases hid : response.idToken with
      | none =>
        simp only [hid] at h₁
        cases (Prog.returns_ret_iff.mp h₁).2
      | some idToken =>
        simp only [hid] at h₁
        obtain ⟨verified, tr₂, rfl, h₂⟩ := Prog.returns_call_iff.mp h₁
        cases verified with
        | error e => cases (Prog.returns_ret_iff.mp h₂).2
        | ok claims =>
          obtain ⟨rfl, hdone⟩ := Prog.returns_ret_iff.mp h₂
          exact ⟨response, idToken, claims, hid, rfl, hdone.symm⟩
  · rintro ⟨response, idToken, claims, hid, rfl, hdone⟩
    refine .call ?_
    simp only [hid]
    exact .call (Prog.returns_ret_iff.mpr ⟨rfl, hdone.symm⟩)

/-- **What a login that completes has done, and what it returns**, as an equivalence: the
specification of `complete` for all that follows. -/
theorem returns_complete_iff {callback : CallbackParams} {cookie : Option String} {tr : LoginTrace}
    {done : LoginComplete} :
    Prog.Returns (c.flow.complete callback cookie).run tr (.ok done)
      ↔ c.Completes callback cookie tr done := by
  rw [run_complete]
  constructor
  · intro h
    cases hcheck : c.check callback cookie with
    | error e =>
      rw [hcheck] at h
      cases (Prog.returns_ret_iff.mp h).2
    | ok admitted =>
      obtain ⟨code, protection⟩ := admitted
      rw [hcheck] at h
      obtain ⟨state, tr₁, rfl, h₁⟩ := Prog.returns_call_iff.mp h
      cases hendpoint : state.client.metadata.tokenEndpoint with
      | none =>
        simp only [hendpoint] at h₁
        cases (Prog.returns_ret_iff.mp h₁).2
      | some endpoint =>
        simp only [hendpoint] at h₁
        obtain ⟨response, idToken, claims, hid, rfl, hdone⟩ := c.returns_exchanged_iff.mp h₁
        obtain ⟨value, hvalue, rfl⟩ := c.completeOf_eq_ok_iff.mp hdone
        exact .intro code protection state response idToken claims value hcheck
          (by rw [hendpoint]; rfl) hid hvalue
  · intro h
    obtain ⟨code, protection, state, response, idToken, claims, value, hcheck, hendpoint, hid,
      hvalue⟩ := h
    rw [hcheck]
    refine .call ?_
    obtain ⟨endpoint, hendpoint⟩ := Option.isSome_iff_exists.mp hendpoint
    simp only [hendpoint]
    exact c.returns_exchanged_iff.mpr
      ⟨response, idToken, claims, hid, rfl, c.completeOf_eq_ok_iff.mpr ⟨value, hvalue, rfl⟩⟩

/-! ### Under way

What has been done by the time an operation is performed, for calls that may be dropped there. -/

/-- The operations of an attempt do not go to the token endpoint. -/
theorem authorize_never_exchanges {destination : String} {tr : LoginTrace} {op : LoginOp}
    {k : op.Answer → LoginProg (Except AuthError AuthorizationRedirect)}
    (h : Prog.Leads (c.flow.authorize destination).run tr (.call op k)) (request : TokenRequest) :
    op ≠ .requestAsync request := by
  -- after the PKCE pair only the state and the nonce are drawn
  have hdrawn : ∀ state pkce tr', Prog.Leads (c.drawn destination state pkce) tr' (.call op k) →
      op ≠ .requestAsync request := by
    intro state pkce tr' h
    rcases Prog.leads_call_iff.mp h with ⟨-, hnext⟩ | ⟨csrf, tr₁, -, h₁⟩
    · cases hnext
      exact fun heq => nomatch heq
    · rcases Prog.leads_call_iff.mp h₁ with ⟨-, hnext⟩ | ⟨nonce, tr₂, -, h₂⟩
      · cases hnext
        exact fun heq => nomatch heq
      · cases (Prog.leads_ret_iff.mp h₂).2
  rw [run_authorize] at h
  cases hvalid : c.redirectPolicy.validate destination with
  | error e =>
    rw [hvalid] at h
    cases (Prog.leads_ret_iff.mp h).2
  | ok u =>
    rw [hvalid] at h
    rcases Prog.leads_call_iff.mp h with ⟨-, hnext⟩ | ⟨state, tr₁, -, h₁⟩
    · cases hnext
      exact fun heq => nomatch heq
    · by_cases hpkce : c.config.usePkce = true
      · rw [if_pos hpkce] at h₁
        rcases Prog.leads_call_iff.mp h₁ with ⟨-, hnext⟩ | ⟨pair, tr₂, -, h₂⟩
        · cases hnext
          exact fun heq => nomatch heq
        · exact hdrawn _ _ _ h₂
      · rw [if_neg hpkce] at h₁
        exact hdrawn _ _ _ h₁

/-- What `complete` has done by the time it performs an operation. -/
inductive Completing (callback : CallbackParams) (cookie : Option String) :
    LoginTrace → LoginOp → Prop where
  | snapshot : Completing callback cookie [] .snapshot
  | exchange {code : String} {protection : ProtectionData} {state : ProviderState}
      (hcheck : c.check callback cookie = .ok (code, protection))
      (hendpoint : state.client.metadata.tokenEndpoint.isSome) :
      Completing callback cookie [⟨.snapshot, state⟩]
        (.requestAsync (tokenRequestOf state code protection))
  | verify {state : ProviderState} {request : TokenRequest} {response : TokenResponse}
      {token : String} {nonce : NonceCheck} :
      Completing callback cookie [⟨.snapshot, state⟩, ⟨.requestAsync request, .ok response⟩]
        (.verifyIdToken token nonce)

/-- Every operation of `complete` is performed at one of these points. -/
theorem completing_of_leads {callback : CallbackParams} {cookie : Option String} {tr : LoginTrace}
    {op : LoginOp} {k : op.Answer → LoginProg (Except AuthError LoginComplete)}
    (h : Prog.Leads (c.flow.complete callback cookie).run tr (.call op k)) :
    c.Completing callback cookie tr op := by
  rw [run_complete] at h
  cases hcheck : c.check callback cookie with
  | error e =>
    rw [hcheck] at h
    cases (Prog.leads_ret_iff.mp h).2
  | ok admitted =>
    obtain ⟨code, protection⟩ := admitted
    rw [hcheck] at h
    rcases Prog.leads_call_iff.mp h with ⟨rfl, hnext⟩ | ⟨state, tr₁, rfl, h₁⟩
    · cases hnext
      exact .snapshot
    cases hendpoint : state.client.metadata.tokenEndpoint with
    | none =>
      simp only [hendpoint] at h₁
      cases (Prog.leads_ret_iff.mp h₁).2
    | some endpoint =>
      simp only [hendpoint] at h₁
      rcases Prog.leads_call_iff.mp h₁ with ⟨rfl, hnext⟩ | ⟨answer, tr₂, rfl, h₂⟩
      · cases hnext
        exact .exchange hcheck (by rw [hendpoint]; rfl)
      cases answer with
      | error e => cases (Prog.leads_ret_iff.mp h₂).2
      | ok response =>
        cases hid : response.idToken with
        | none =>
          simp only [hid] at h₂
          cases (Prog.leads_ret_iff.mp h₂).2
        | some idToken =>
          simp only [hid] at h₂
          rcases Prog.leads_call_iff.mp h₂ with ⟨rfl, hnext⟩ | ⟨verified, tr₃, rfl, h₃⟩
          · cases hnext
            exact .verify
          cases verified with
          | error e => cases (Prog.leads_ret_iff.mp h₃).2
          | ok claims => cases (Prog.leads_ret_iff.mp h₃).2

/-! ### A plain flow

The default configuration, with as little behind it as a run needs. -/

/-- serde, as far as one value is concerned. -/
def serdeOf (p : ProtectionData) (json : String) : ProtectionSerde where
  toVec p' := if p' = p then .ok json.toUTF8.data.toList else .error "another value"
  fromSlice bytes :=
    if bytes = json.toUTF8.data.toList then .ok p else .error "expected value at line 1 column 1"
  decodeError _ := "Invalid byte"

/-- A library that accepts every token, whose claims carry the nonce they are checked for. -/
def bareLibrary : OpenIdConnect where
  parseIdToken text := .ok ⟨text⟩
  nonceEquals expected claim := if claim = some expected then .ok () else .error "nonce mismatch"
  missingTokenUrl := "No token endpoint URL specified"
  authorizeUrl request :=
    "https://issuer/authorize?state=" ++ request.state ++ "&nonce=" ++ request.nonce

theorem serdeOf_roundTrips (p : ProtectionData) (json : String) :
    (serdeOf p json).RoundTrips := by
  intro p' bytes h
  unfold serdeOf at h ⊢
  by_cases hp : p' = p
  · simp only [if_pos hp] at h
    obtain rfl := (Except.ok.inj h).symm
    simp [hp]
  · simp only [if_neg hp] at h
    cases h

/-- A flow as `LoginFlow::new` configures it. -/
def bareLogin (serde : ProtectionSerde) : LoginService where
  config := { issuerUrl := "https://issuer", clientId := "app", redirectUrl := "https://app/cb" }
  lib := bareLibrary
  serde := serde
  codec := idTokenCodec
  session := .ofSession "session"
  protection := .ofProtection "authn_protection"
  redirectPolicy := .relativeOnly

end LoginService

end AuthnKit
