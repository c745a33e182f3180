import AuthnKit.Oidc.LoginRuns

/-!
# AuthnKit — a login attempt and its callback

Any number of login attempts and callbacks, interleaved at every effect. A callback is whatever a
client sends: any query string, with any cookie or none. The provider answers arbitrarily, up to
what `verify_id_token` can answer; what is drawn at random is fresh.

* **`LoginService.machine`** — the attempts and the callbacks, interleaved.
* **`bound_of_complete`** — a callback that completes with the cookie of an attempt returned that
  attempt's state, and exchanged its code with that attempt's secrets.
* **`body_of_refused`** — a callback that is refused does nothing at all.
* **`login_bound`** — both, in every run.
-/

namespace AuthnKit

open Interleave

inductive LoginCall where
  | authorize (destination : String)
  | callback (query : String) (cookie : Option String)

inductive LoginAnswer where
  | redirect (redirect : AuthorizationRedirect)
  | complete (done : LoginComplete)

abbrev LoginResult := Except AuthError LoginAnswer

abbrev LoginView := View LoginCall LoginOp LoginOp.Answer Unit

abbrev LoginRun := State LoginCall LoginOp LoginOp.Answer Unit LoginResult

/-- The operations a call may be dropped at: where it awaits. -/
def LoginOp.Awaits : LoginOp → Prop
  | .requestAsync _ | .verifyIdToken _ _ => True
  | _ => False

/-- The library's nonce check compares for equality. -/
def OpenIdConnect.ComparesNonces (lib : OpenIdConnect) : Prop :=
  ∀ expected claim, lib.nonceEquals expected claim = .ok () ↔ claim = some expected

namespace LoginService

variable (c : LoginService)

def body : LoginCall → LoginProg LoginResult
  | .authorize destination => (c.flow.authorize destination).run >>= fun result =>
      .ret (result.map LoginAnswer.redirect)
  | .callback query cookie => match CallbackParams.fromQuery query with
    | .error e => .ret (.error e)
    | .ok callback => (c.flow.complete callback cookie).run >>= fun result =>
        .ret (result.map LoginAnswer.complete)

/-- What an operation can answer: csrf tokens and nonces are drawn once. -/
def answers (v : LoginView) : (op : LoginOp) → op.Answer → Prop
  | .csrfNewRandom, csrf => ∀ ev ∈ v.history, ¬ ev.Did .csrfNewRandom csrf
  | .nonceNewRandom, nonce => ∀ ev ∈ v.history, ¬ ev.Did .nonceNewRandom nonce
  | .verifyIdToken token nonce, result => c.provider.Verifies token nonce result
  | .snapshot, _ => True
  | .requestAsync _, _ => True
  | .newRandomSha256, _ => True

/-- Attempts and callbacks, interleaved. Nothing is shared but the source of randomness, so the
history is all there is. -/
def machine : Machine LoginCall LoginOp LoginOp.Answer Unit LoginResult where
  body := c.body
  init _ := True
  exec _ v op a _ := c.answers v op a
  abandon _ _ op _ := op.Awaits
  env _ _ := True

variable {c} {s : LoginRun}

/-! ## One call

What a finished call has done, read off its trace: the secrets it drew if it began a login, and what
it compared and verified if it completed one. -/

/-- What an attempt that begins draws, and what it returns. -/
theorem begins_of_returns {destination : String} {tr : LoginTrace} {answer : LoginAnswer}
    (h : Prog.Returns (c.body (.authorize destination)) tr (.ok answer)) :
    ∃ redirect, answer = .redirect redirect ∧ c.Begins destination tr redirect := by
  obtain ⟨tr₁, result, tr₂, htrace, h₁, h₂⟩ := Prog.returns_bind_iff.mp h
  obtain ⟨rfl, hresult⟩ := Prog.returns_ret_iff.mp h₂
  rw [List.append_nil] at htrace
  rw [htrace]
  cases result with
  | error e => cases hresult
  | ok redirect => exact ⟨redirect, Except.ok.inj hresult, c.returns_authorize_iff.mp h₁⟩

/-- What a callback that completes does, and what it returns. -/
theorem completes_of_returns {query : String} {cookie : Option String} {tr : LoginTrace}
    {answer : LoginAnswer} (h : Prog.Returns (c.body (.callback query cookie)) tr (.ok answer)) :
    ∃ callback done, CallbackParams.fromQuery query = .ok callback ∧ answer = .complete done
      ∧ c.Completes callback cookie tr done := by
  unfold body at h
  cases hquery : CallbackParams.fromQuery query with
  | error e =>
    simp only [hquery] at h
    cases (Prog.returns_ret_iff.mp h).2
  | ok callback =>
    simp only [hquery] at h
    obtain ⟨tr₁, result, tr₂, htrace, h₁, h₂⟩ := Prog.returns_bind_iff.mp h
    obtain ⟨rfl, hresult⟩ := Prog.returns_ret_iff.mp h₂
    rw [List.append_nil] at htrace
    rw [htrace]
    cases result with
    | error e => cases hresult
    | ok done => exact ⟨callback, done, rfl, Except.ok.inj hresult, c.returns_complete_iff.mp h₁⟩

/-- What an attempt that has begun drew in the run, and what it returned. -/
theorem begins_of_returned (hs : Reachable c.machine s) {i : ℕ} {destination : String}
    {redirect : AuthorizationRedirect}
    (hi : s.Returned i (.authorize destination) (.ok (.redirect redirect))) :
    c.Begins destination (s.view.trace i) redirect := by
  obtain ⟨redirect', hanswer, hbegins⟩ := begins_of_returns (hs.returns hi)
  cases hanswer
  exact hbegins

/-- What a callback that has completed did in the run, and what it returned. -/
theorem completes_of_returned (hs : Reachable c.machine s) {j : ℕ} {query : String}
    {cookie : Option String} {done : LoginComplete}
    (hj : s.Returned j (.callback query cookie) (.ok (.complete done))) :
    ∃ callback, CallbackParams.fromQuery query = .ok callback
      ∧ c.Completes callback cookie (s.view.trace j) done := by
  obtain ⟨callback, done', hquery, hanswer, hcompletes⟩ := completes_of_returns (hs.returns hj)
  cases hanswer
  exact ⟨callback, hquery, hcompletes⟩

/-- Every verification of a run was answered as the provider can answer it. -/
theorem genuine_trace (hs : Reachable c.machine s) (j : ℕ) : c.Genuine (s.view.trace j) := by
  intro token nonce a hmem
  obtain ⟨ev, hev, _, hdid⟩ := View.mem_trace.mp hmem
  obtain ⟨past, hev⟩ := happened_of_mem hev
  have hx : c.answers ⟨ev.pre, past⟩ ev.op ev.ans := hs.exec_of_happened hev
  obtain ⟨task, req, op, ans, pre, post⟩ := ev
  cases hdid
  exact hx

/-- **Two attempts share no state and no nonce.** The later of the two draws was fresh when it was
made, and the earlier one lay in its past. -/
theorem draw_unique (hs : Reachable c.machine s) {op : LoginOp} {a : op.Answer}
    (hop : op = .csrfNewRandom ∨ op = .nonceNewRandom) {i k : ℕ} (hi : ⟨op, a⟩ ∈ s.view.trace i)
    (hk : ⟨op, a⟩ ∈ s.view.trace k) : k = i := by
  refine hs.task_unique ?_ hi hk
  intro _ _ _ hx
  rcases hop with rfl | rfl
  · exact hx
  · exact hx

/-! ## Attempts

An attempt is identified by the call that began it. Its secrets are nobody else's, as they were
drawn fresh. -/

/-- A login attempt: the call that began it, what it drew, and the cookie that carries that. -/
structure Attempt where
  task : ℕ
  destination : String
  redirect : AuthorizationRedirect
  state : ProviderState
  pkce : Option (String × String)
  csrf : String
  nonce : String
  cookie : String

/-- The attempt was begun in this run. Its authorization URL carries its state, its nonce and its
PKCE challenge. -/
structure Attempt.In (a : Attempt) (c : LoginService) (s : LoginRun) : Prop where
  returned : s.Returned a.task (.authorize a.destination) (.ok (.redirect a.redirect))
  trace : s.view.trace a.task =
    ⟨.snapshot, a.state⟩ :: draws a.pkce ++ [⟨.csrfNewRandom, a.csrf⟩, ⟨.nonceNewRandom, a.nonce⟩]
  pkce : a.pkce.isSome = c.config.usePkce
  location : a.redirect.location = c.lib.authorizeUrl (c.requestOf a.state a.pkce a.csrf a.nonce)
  cookies : a.redirect.cookies = [c.protection.set a.cookie, c.session.clear]
  encoded : (protectionOf a.pkce a.csrf a.nonce a.destination).encode c.serde = .ok a.cookie

/-- **Every login that begins is an attempt**, with the secrets it drew and the cookie that carries
them. -/
theorem exists_attempt (hs : Reachable c.machine s) {i : ℕ} {destination : String}
    {redirect : AuthorizationRedirect}
    (hi : s.Returned i (.authorize destination) (.ok (.redirect redirect))) :
    ∃ a : Attempt, a.In c s ∧ a.task = i ∧ a.destination = destination ∧ a.redirect = redirect := by
  have hbegins := begins_of_returned hs hi
  generalize htrace : s.view.trace i = tr at hbegins
  obtain ⟨state, pkce, csrf, nonce, value, hvalid, hpkce, hvalue⟩ := hbegins
  exact ⟨⟨i, destination, _, state, pkce, csrf, nonce, value⟩,
    ⟨hi, htrace, hpkce, rfl, rfl, hvalue⟩, rfl, rfl, rfl⟩

/-- Different attempts have different secrets, both the state and the nonce. -/
theorem Attempt.In.secrets_ne (hs : Reachable c.machine s) {a b : Attempt} (ha : a.In c s)
    (hb : b.In c s) (hne : b.task ≠ a.task) : b.csrf ≠ a.csrf ∧ b.nonce ≠ a.nonce := by
  constructor
  · intro hcsrf
    have hmem : ⟨.csrfNewRandom, a.csrf⟩ ∈ s.view.trace b.task := by
      rw [hb.trace, hcsrf]
      simp
    exact hne (draw_unique hs (.inl rfl) (by rw [ha.trace]; simp) hmem)
  · intro hnonce
    have hmem : ⟨.nonceNewRandom, a.nonce⟩ ∈ s.view.trace b.task := by
      rw [hb.trace, hnonce]
      simp
    exact hne (draw_unique hs (.inr rfl) (by rw [ha.trace]; simp) hmem)

/-! ## Completing an attempt

A callback is compared with the cookie it comes with, and the cookie is that of one attempt. -/

/-- A completed callback is bound to the attempt whose cookie it came with. -/
structure Bound (c : LoginService) (s : LoginRun) (a : Attempt) (j : ℕ) (query : String)
    (done : LoginComplete) : Prop where
  no_error : ∀ pair ∈ queryPairs query, pair.1 ≠ "error"
  state : Table.lastValue "state" (queryPairs query) = some a.csrf
  /-- One request went to the token endpoint, with the code of the callback and the PKCE verifier
  of the attempt; the ID token of the answer was verified with its nonce. -/
  exchange : ∃ code state response idToken,
    Table.lastValue "code" (queryPairs query) = some code
    ∧ s.view.trace j = [⟨.snapshot, state⟩,
      ⟨.requestAsync ⟨state.client, .authorizationCode code, [], a.pkce.map (·.2)⟩, .ok response⟩,
      ⟨.verifyIdToken idToken.text (.matches a.nonce), .ok done.claims⟩]
    ∧ response.idToken = some idToken
    ∧ ∃ parsed accepted, c.lib.parseIdToken idToken.text = .ok parsed
      ∧ accepted.nonce = some a.nonce ∧ done.claims = identityFromIdTokenClaims accepted
  destination : done.redirectTo = a.destination
  others : ∀ b : Attempt, b.In c s → b.task ≠ a.task → b.csrf ≠ a.csrf ∧ b.nonce ≠ a.nonce

/-- **A callback that completes with the cookie of an attempt belongs to that attempt**: its state,
its PKCE verifier, its nonce and its destination are those that were drawn for it. -/
theorem bound_of_complete (hserde : c.serde.RoundTrips) (hnonces : c.lib.ComparesNonces)
    (hs : Reachable c.machine s) {a : Attempt} (ha : a.In c s) {j : ℕ} {query : String}
    {done : LoginComplete}
    (hj : s.Returned j (.callback query (some a.cookie)) (.ok (.complete done))) :
    c.Bound s a j query done := by
  have hgen := genuine_trace hs j
  obtain ⟨callback, hquery, hcompletes⟩ := completes_of_returned hs hj
  generalize htrace : s.view.trace j = tr at hcompletes hgen
  obtain ⟨code, protection, state, response, idToken, claims, value, hcheck, hendpoint, hid,
    hvalue⟩ := hcompletes
  -- the cookie decodes to what the attempt put into it
  obtain ⟨hcallback, raw, hraw, hdecode⟩ := c.check_eq_ok_iff.mp hcheck
  obtain rfl := Option.some.inj hraw
  obtain rfl : protectionOf a.pkce a.csrf a.nonce a.destination = protection :=
    Except.ok.inj ((ProtectionData.decode_of_encode hserde ha.encoded).symm.trans hdecode)
  rw [hcallback] at hquery
  obtain ⟨hnoerror, hcode, hstate⟩ := CallbackParams.fromQuery_eq_success_iff.mp hquery
  have hverifies := hgen idToken.text (.matches a.nonce) (.ok claims) (by simp [protectionOf])
  obtain ⟨parsed, accepted, hparse, hnonce, hclaims⟩ := ProviderService.verifies_ok_iff.mp hverifies
  exact ⟨hnoerror, hstate, ⟨code, state, response, idToken, hcode, htrace, hid, parsed, accepted,
    hparse, (hnonces a.nonce accepted.nonce).mp hnonce, hclaims⟩, rfl,
    fun b hb hne => ha.secrets_ne hs hb hne⟩

/-! ## Refusing a callback

What is refused before anything is done: a callback that reports an error, that comes without a
cookie or with one that does not decode, or whose state is another. -/

/-- The callbacks no attempt is completed by. -/
inductive Refused (c : LoginService) (query : String) (cookie : Option String) : Prop where
  | error (h : ∃ pair ∈ queryPairs query, pair.1 = "error")
  | missing (h : cookie = none)
  | undecodable (raw : String) (e : AuthError) (h : cookie = some raw)
      (hdecode : ProtectionData.decode c.serde raw = .error e)
  | mismatch (raw : String) (protection : ProtectionData) (h : cookie = some raw)
      (hdecode : ProtectionData.decode c.serde raw = .ok protection)
      (hstate : Table.lastValue "state" (queryPairs query) ≠ some protection.csrf)

/-- **A refused callback fails before it does anything**: no code is exchanged, and no token
verified. -/
theorem body_of_refused {query : String} {cookie : Option String} (h : c.Refused query cookie) :
    ∃ e, c.body (.callback query cookie) = .ret (.error e) := by
  unfold body
  cases hquery : CallbackParams.fromQuery query with
  | error e =>
    simp only [hquery]
    exact ⟨e, rfl⟩
  | ok callback =>
    simp only [hquery, run_complete]
    cases hcheck : c.check callback cookie with
    | error e => exact ⟨e, rfl⟩
    | ok checked =>
      exfalso
      obtain ⟨hcallback, raw, rfl, hdecode⟩ := c.check_eq_ok_iff.mp hcheck
      rw [hcallback] at hquery
      obtain ⟨hnoerror, _, hstate⟩ := CallbackParams.fromQuery_eq_success_iff.mp hquery
      cases h with
      | error h =>
        obtain ⟨pair, hmem, herror⟩ := h
        exact hnoerror pair hmem herror
      | missing h => cases h
      | undecodable raw' e h hdecode' =>
        cases h
        cases hdecode.symm.trans hdecode'
      | mismatch raw' protection h hdecode' hstate' =>
        cases h
        cases hdecode.symm.trans hdecode'
        exact hstate' hstate

/-! ## The whole

The binding of attempts to callbacks, in all runs of attempts and callbacks in any order. -/

/-- **Login attempts are bound to their callbacks.** -/
structure Binding (c : LoginService) (s : LoginRun) : Prop where
  attempts : ∀ i destination redirect,
    s.Returned i (.authorize destination) (.ok (.redirect redirect)) →
    ∃ a : Attempt, a.In c s ∧ a.task = i ∧ a.destination = destination ∧ a.redirect = redirect
  bound : ∀ a : Attempt, a.In c s → ∀ j query done,
    s.Returned j (.callback query (some a.cookie)) (.ok (.complete done)) → c.Bound s a j query done
  /-- A refused callback performs no operation, so it sends nothing, and returns an error. -/
  refused : ∀ j query cookie, s.Submitted j (.callback query cookie) → c.Refused query cookie →
    s.view.trace j = [] ∧ ∀ res, s.Returned j (.callback query cookie) res → ∃ e, res = .error e

/-- **Login attempts are bound to their callbacks**, whoever else is logging in at the same time. -/
theorem login_bound (hserde : c.serde.RoundTrips) (hnonces : c.lib.ComparesNonces)
    (hs : Reachable c.machine s) : c.Binding s where
  attempts _ _ _ hi := exists_attempt hs hi
  bound _ ha _ _ _ hj := bound_of_complete hserde hnonces hs ha hj
  refused j query cookie hsub hrefused := by
    obtain ⟨e, hbody⟩ := body_of_refused hrefused
    obtain ⟨p, hleads⟩ := hs.leads hsub
    rw [show c.machine.body (.callback query cookie) = _ from hbody] at hleads
    refine ⟨(Prog.leads_ret_iff.mp hleads).1, ?_⟩
    intro res hret
    have hrun := hs.leads_running hret
    rw [show c.machine.body (.callback query cookie) = _ from hbody] at hrun
    exact ⟨e, Prog.ret.inj (Prog.leads_ret_iff.mp hrun).2⟩

/-! ### Performing a behaviour

Any behaviour of a call whose draws are new can be performed in any reachable state, which is how
the example runs are put together. -/

theorem returns_body_of_begins {destination : String} {tr : LoginTrace}
    {redirect : AuthorizationRedirect} (h : c.Begins destination tr redirect) :
    Prog.Returns (c.body (.authorize destination)) tr (.ok (.redirect redirect)) :=
  Prog.returns_bind_iff.mpr
    ⟨tr, .ok redirect, [], (List.append_nil tr).symm, c.returns_authorize_iff.mpr h, .ret _⟩

theorem returns_body_of_completes {query : String} {callback : CallbackParams}
    (hquery : CallbackParams.fromQuery query = .ok callback) {cookie : Option String}
    {tr : LoginTrace} {done : LoginComplete} (h : c.Completes callback cookie tr done) :
    Prog.Returns (c.body (.callback query cookie)) tr (.ok (.complete done)) := by
  unfold body
  simp only [hquery]
  exact Prog.returns_bind_iff.mpr
    ⟨tr, .ok done, [], (List.append_nil tr).symm, c.returns_complete_iff.mpr h, .ret _⟩

/-- The operations whose answers are fresh. -/
def IsDraw : LoginOp → Prop
  | .csrfNewRandom | .nonceNewRandom => True
  | _ => False

/-- A call under an unused identifier can behave in any genuine way whose draws are new. -/
theorem exists_performed (hs : Reachable c.machine s) {i : ℕ} (hi : s.tasks i = .idle)
    {call : LoginCall} {tr : LoginTrace} {res : LoginResult}
    (hret : Prog.Returns (c.body call) tr res) (hgen : c.Genuine tr) (hnodup : tr.Nodup)
    (hfresh : ∀ x ∈ tr, IsDraw x.1 → ∀ ev ∈ s.view.history, ¬ ev.Did x.1 x.2) :
    ∃ s', Reachable c.machine s' ∧ s'.Returned i call res ∧ ∀ j, j ≠ i → s'.tasks j = s.tasks j := by
  obtain ⟨own, _, halone⟩ := alone_of_returns (M := c.machine) (i := i) (r := call) hret s.view (by
    intro before op ans after htr own hown
    have hmem : ⟨op, ans⟩ ∈ tr := by
      rw [htr]
      exact List.mem_append_right before List.mem_cons_self
    have hnew : IsDraw op → ∀ ev ∈ own ++ s.view.history, ¬ ev.Did op ans := by
      intro hdraw ev hev hdid
      rcases List.mem_append.mp hev with hev | hev
      · -- it is not among what the call drew before
        have hbefore : (⟨op, ans⟩ : Σ op : LoginOp, op.Answer) ∈ before := by
          rw [← show (⟨ev.op, ev.ans⟩ : Σ op : LoginOp, op.Answer) = ⟨op, ans⟩ from hdid]
          exact hown ev hev
        rw [htr] at hnodup
        exact (List.nodup_append.mp hnodup).2.2 _ hbefore _ List.mem_cons_self rfl
      · exact hfresh _ hmem hdraw ev hev hdid
    show c.answers ⟨s.view.world, own ++ s.view.history⟩ op ans
    cases op with
    | csrfNewRandom => exact hnew trivial
    | nonceNewRandom => exact hnew trivial
    | verifyIdToken token nonce => exact hgen token nonce ans hmem
    | snapshot => trivial
    | requestAsync request => trivial
    | newRandomSha256 => trivial)
  obtain ⟨s', hs', _, hret', hframe⟩ := hs.submit hi halone
  exact ⟨s', hs', hret', hframe⟩

/-! ### An attempt that completes

One attempt and its callback, with the JSON that is really written for its secrets. -/

theorem bareLibrary_comparesNonces : bareLibrary.ComparesNonces := by
  intro expected claim
  unfold bareLibrary
  by_cases h : claim = some expected
  · simp [h]
  · simp [h]

def adminData : ProtectionData := ⟨"s1", "n1", some "v1", "/admin"⟩

def adminJson : String :=
  "\x7b\"csrf\":\"s1\",\"nonce\":\"n1\",\"pkce_verifier\":\"v1\",\"destination\":\"/admin\"\x7d"

def adminLogin : LoginService := bareLogin (serdeOf adminData adminJson)

def adminCookie : String := Base64.encode .urlSafe adminJson.toUTF8.data.toList

def adminState : ProviderState :=
  adminLogin.provider.stateOf ⟨"", some "", none, []⟩ ⟨0, Instant.zero_lt_max⟩

def adminRedirect : AuthorizationRedirect :=
  ⟨adminLogin.lib.authorizeUrl (adminLogin.requestOf adminState (some ("h1", "v1")) "s1" "n1"),
    [adminLogin.protection.set adminCookie, adminLogin.session.clear]⟩

def adminClaims : IdTokenClaims := ⟨"alice", 0, none, none, none, some "n1", none⟩

def adminDone : LoginComplete :=
  ⟨identityFromIdTokenClaims adminClaims, "/admin",
    [adminLogin.session.set "a.b.c", adminLogin.protection.clear]⟩

theorem adminLogin_begins : adminLogin.Begins "/admin"
    (⟨.snapshot, adminState⟩ :: draws (some ("h1", "v1"))
      ++ [⟨.csrfNewRandom, "s1"⟩, ⟨.nonceNewRandom, "n1"⟩]) adminRedirect := by
  refine .intro adminState (some ("h1", "v1")) "s1" "n1" adminCookie (by decide) rfl ?_
  simp [protectionOf, ProtectionData.encode, adminLogin, bareLogin, serdeOf, adminData, adminCookie]

theorem fromQuery_admin : CallbackParams.fromQuery "code=x&state=s1" = .ok (.success "x" "s1") := by
  decide +kernel

theorem check_admin :
    adminLogin.check (.success "x" "s1") (some adminCookie) = .ok ("x", adminData) := by
  have hdecode : ProtectionData.decode adminLogin.serde adminCookie = .ok adminData := by
    unfold ProtectionData.decode adminCookie
    rw [Base64.decode_encode]
    simp [adminLogin, bareLogin, serdeOf]
  exact adminLogin.check_eq_ok_iff.mpr ⟨rfl, adminCookie, rfl, hdecode⟩

/-- The callback is compared, its code exchanged and its token verified. -/
theorem adminLogin_completes : adminLogin.Completes (.success "x" "s1") (some adminCookie)
    [⟨.snapshot, adminState⟩,
      ⟨.requestAsync (tokenRequestOf adminState "x" adminData), .ok ⟨none, some ⟨"a.b.c"⟩⟩⟩,
      ⟨.verifyIdToken "a.b.c" (.matches "n1"), .ok (identityFromIdTokenClaims adminClaims)⟩]
    adminDone :=
  .intro "x" adminData adminState ⟨none, some ⟨"a.b.c"⟩⟩ ⟨"a.b.c"⟩
    (identityFromIdTokenClaims adminClaims) "a.b.c" check_admin rfl rfl rfl

/-- An attempt and a callback that completes it, in one run. -/
theorem adminLogin_bound : ∃ (s : LoginRun) (a : Attempt) (done : LoginComplete), a.In adminLogin s
    ∧ s.Returned 1 (.callback "code=x&state=s1" (some a.cookie)) (.ok (.complete done))
    ∧ adminLogin.Binding s := by
  -- one after the other
  have h₀ : Reachable adminLogin.machine (⟨⟨(), []⟩, fun _ => .idle⟩ : LoginRun) := .init () trivial
  obtain ⟨s₁, hs₁, hret₁, hframe₁⟩ := exists_performed (i := 0) h₀ rfl
    (returns_body_of_begins adminLogin_begins)
    (by intro token nonce a hmem; simp [draws] at hmem) (by simp [draws]) (by simp)
  obtain ⟨s₂, hs₂, hret₂, hframe₂⟩ := exists_performed (i := 1) hs₁ (hframe₁ 1 (by decide))
    (returns_body_of_completes fromQuery_admin adminLogin_completes)
    (by
      intro token nonce a hmem
      simp only [List.mem_cons, List.not_mem_nil, or_false] at hmem
      rcases hmem with hmem | hmem | hmem
      · cases hmem
      · cases hmem
      · cases hmem
        exact ProviderService.verifies_ok_iff.mpr ⟨⟨"a.b.c"⟩, adminClaims, rfl, rfl, rfl⟩)
    (by simp) (by
      intro x hx hdraw
      simp only [List.mem_cons, List.not_mem_nil, or_false] at hx
      rcases hx with rfl | rfl | rfl
      · exact hdraw.elim
      · exact hdraw.elim
      · exact hdraw.elim)
  have hret₀ : s₂.Returned 0 (.authorize "/admin") (.ok (.redirect adminRedirect)) :=
    (hframe₂ 0 (by decide)).trans hret₁
  obtain ⟨a, ha, -, -, hredirect⟩ := exists_attempt hs₂ hret₀
  have hcookie : adminCookie = a.cookie := by
    have hcookies := ha.cookies
    rw [hredirect] at hcookies
    exact congrArg CookieDirective.value (List.cons.inj hcookies).1
  rw [hcookie] at hret₂
  exact ⟨s₂, a, adminDone, ha, hret₂,
    login_bound (serdeOf_roundTrips _ _) bareLibrary_comparesNonces hs₂⟩

end LoginService

end AuthnKit
