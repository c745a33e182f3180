import AuthnKit.Mechanisms.CacheRuns

/-!
# AuthnKit — runs of the Basic authenticator

Requests to a `BasicAuthenticator`, interleaved over its cache (`Mechanisms.CacheRuns`). The two
grants share one cache and one shape: look up, take a snapshot, exchange, redeem the response,
store.

* **`body_eq`** — the authenticator, unfolded to its operations.
* **`Presents`** — the credentials a token request proves.
* **`Minted`** — what stands behind a principal: a successful exchange of the grant, the id and
  the secret, and what the same task made of the response.
* **`spec_valid`** — in every run every entry was written so.
-/

namespace AuthnKit

open Interleave

variable {U S : Type}

/-- The two grants behind a Basic pair. -/
inductive GrantKind where
  | password
  | clientCredentials
  deriving DecidableEq

/-- The name a grant's principals are cached under. -/
def GrantKind.mechanism : GrantKind → String
  | password => "basic-password"
  | clientCredentials => "basic-client-credentials"

/-- The two grants are cached under different names, so a principal of one is not served for the
other. -/
theorem GrantKind.mechanism_inj {g g' : GrantKind} (h : g.mechanism = g'.mechanism) : g = g' := by
  cases g <;> cases g' <;> first | rfl | exact absurd h (by decide)

/-- **What a token request proves**: a resource owner's password, or the credentials of the
client it is sent as. -/
def TokenRequest.Presents (request : TokenRequest) (kind : GrantKind) (id secret : String) : Prop :=
  match kind with
  | .password => request.grant = .password id secret
  | .clientCredentials => request.grant = .clientCredentials ∧ request.client.clientId = id
      ∧ request.client.clientSecret = some secret

/-- A token request is of one grant and one pair, so what it proves can be read off it. -/
theorem TokenRequest.Presents.unique {request : TokenRequest} {kind kind' : GrantKind}
    {id id' secret secret' : String} (h : request.Presents kind id secret)
    (h' : request.Presents kind' id' secret') : kind = kind' ∧ id = id' ∧ secret = secret' := by
  cases kind with
  | password =>
    cases kind' with
    | password =>
      have heq : Grant.password id secret = Grant.password id' secret' := h.symm.trans h'
      exact ⟨rfl, (Grant.password.inj heq).1, (Grant.password.inj heq).2⟩
    | clientCredentials => exact absurd (h.symm.trans h'.1) (by simp)
  | clientCredentials =>
    cases kind' with
    | password => exact absurd (h.1.symm.trans h') (by simp)
    | clientCredentials =>
      exact ⟨rfl, h.2.1.symm.trans h'.2.1, Option.some.inj (h.2.2.symm.trans h'.2.2)⟩

/-- How a Basic authenticator is configured. -/
structure BasicService where
  blake3 : Blake3
  config : OidcConfig
  lib : OpenIdConnect
  allowPasswordGrant : Bool
  cacheConfig : CacheConfig

namespace BasicService

def authenticator (c : BasicService) : BasicAuthenticator (MechProg U) U where
  provider := MechProg.provider c.config c.lib
  cache := MechProg.cache
  allowPasswordGrant := c.allowPasswordGrant

variable (c : BasicService)

def cacheKey (scope : Option String) (kind : GrantKind) (id secret : String) : CacheKey :=
  CredentialCache.key c.blake3 scope kind.mechanism id secret

/-- The grant a request selects, or why it selects none. -/
def selectGrant (request : AuthRequest) : Except AuthError GrantKind :=
  match request.header grantTypeHeader with
  | none | some "client_credentials" => .ok .clientCredentials
  | some "password" =>
    if c.allowPasswordGrant then .ok .password
    else .error (.unsupported "the resource-owner password grant is not enabled")
  | some other => .error (.malformedCredential ("unsupported x-grant-type: " ++ other))

/-- The token request of a grant, from a snapshot of the provider. -/
def tokenRequest (kind : GrantKind) (id secret : String) (state : ProviderState) :
    Except AuthError TokenRequest :=
  match kind with
  | .password => (state.client.exchange c.lib (.password id secret)).map fun request =>
      { request with scopes := c.config.scopes }
  | .clientCredentials =>
    (buildClient state.metadata id (some secret) c.config.redirectUrl).exchange c.lib
      .clientCredentials

/-- The token request of a grant presents the pair it is made for. -/
theorem presents_of_tokenRequest {kind : GrantKind} {id secret : String} {state : ProviderState}
    {request : TokenRequest} (h : c.tokenRequest kind id secret state = .ok request) :
    request.Presents kind id secret := by
  cases kind with
  | password =>
    unfold tokenRequest OidcClient.exchange at h
    cases htok : state.client.metadata.tokenEndpoint with
    | none => simp [htok, Except.map] at h
    | some url =>
      simp only [htok, Except.map, Except.ok.injEq] at h
      subst h
      rfl
  | clientCredentials =>
    unfold tokenRequest OidcClient.exchange at h
    simp only [buildClient] at h
    cases htok : state.metadata.tokenEndpoint with
    | none => simp [htok] at h
    | some url =>
      simp only [htok, Except.ok.injEq] at h
      subst h
      exact ⟨rfl, rfl, rfl⟩

variable [Principal U] [AuthScope S]

def body (ctx : AuthContext S) : MechProg U (Except AuthError (Verdict U)) :=
  (c.authenticator.authenticate c.blake3 ctx).run

/-- Requests to the authenticator, interleaved over its cache. -/
def machine : Machine (AuthContext S) (MechOp U) MechOp.Answer (CacheWorld U)
    (Except AuthError (Verdict U)) :=
  cacheMachine c.cacheConfig c.body

/-! ## The authenticator as operations

Over the operations of a run both grants are one program with the grant as a parameter: a lookup, an
exchange, and what is made of its response. -/

def machineClaims (id : String) : IdentityClaims :=
  IdentityClaims.new .clientCredentials
    |>.withSubject id |>.withClientId id |>.withPreferredUsername id

/-- The last step: the claims converted and stored. -/
def store (k : CacheKey) (what : String) (claims : IdentityClaims)
    (expiresIn : Option Duration) : MechProg U (Except AuthError (Verdict U)) :=
  match (principalFrom what claims : Except AuthError U) with
  | .error e => .ret (.error e)
  | .ok user => .call (.cacheInsert k user expiresIn) fun _ => .ret (.ok (.authenticated user))

def redeem (k : CacheKey) (kind : GrantKind) (id : String) (response : TokenResponse) :
    MechProg U (Except AuthError (Verdict U)) :=
  match kind with
  | .password => match response.idToken with
    | none => .ret (.error (.upstream "token response carried no id_token"))
    | some idToken => .call (.verifyIdToken idToken.text .skip) fun answer => match answer with
      | .error e => .ret (.error e)
      | .ok claims => store k "password-grant identity conversion" claims response.expiresIn
  | .clientCredentials =>
    store k "client-credentials identity conversion" (machineClaims id) response.expiresIn

def grant (scope : Option String) (kind : GrantKind) (id secret : String) :
    MechProg U (Except AuthError (Verdict U)) :=
  .call (.cacheGet (c.cacheKey scope kind id secret)) fun hit => match hit with
    | some user => .ret (.ok (.authenticated user))
    | none => .call .snapshot fun state => match c.tokenRequest kind id secret state with
      | .error e => .ret (.error e)
      | .ok request => .call (.requestAsync request) fun answer => match answer with
        | .error e => .ret (.error e.toAuthError)
        | .ok response => redeem (c.cacheKey scope kind id secret) kind id response

/-- The last step, unfolded: the claims are converted, and stored if that succeeds. -/
theorem run_store (k : CacheKey) (what : String) (claims : IdentityClaims)
    (expiresIn : Option Duration) :
    ((do
        let user ← ExceptT.mk (pure (principalFrom what claims))
        (c.authenticator (U := U)).cache.insert k user expiresIn
        pure user : ExceptT AuthError (MechProg U) U)
      >>= fun user => pure (Verdict.authenticated user)).run = store k what claims expiresIn := by
  unfold store
  rw [bind_assoc, Prog.run_mk_bind]
  cases (principalFrom what claims : Except AuthError U) <;> rfl

/-- The password grant is the common program at its own cache name, request and claims. -/
theorem run_passwordGrant (ctx : AuthContext S) (id secret : String) :
    (((c.authenticator (U := U)).passwordGrant c.blake3 ctx id secret)
      >>= fun user => pure (Verdict.authenticated user)).run
      = c.grant (AuthScope.cacheDiscriminator ctx.scope) .password id secret := by
  unfold BasicAuthenticator.passwordGrant grant
  refine Prog.call_congr fun hit => ?_
  cases hit with
  | some user => rfl
  | none =>
    refine Prog.call_congr fun state => ?_
    obtain ⟨metadata, ⟨⟨authorization, token, introspection, jwks⟩, clientId, clientSecret,
      redirect⟩, fetchedAt⟩ := state
    cases token with
    | none => rfl
    | some url =>
      refine Prog.call_congr fun answer => ?_
      cases answer with
      | error e => rfl
      | ok response =>
        obtain ⟨expiresIn, idToken⟩ := response
        cases idToken with
        | none => rfl
        | some idToken =>
          refine Prog.call_congr fun answer => ?_
          cases answer with
          | error e => rfl
          | ok claims => exact c.run_store _ _ claims expiresIn

/-- The client-credentials grant is the common program as well, with the client as its identity. -/
theorem run_clientCredentialsGrant (ctx : AuthContext S) (id secret : String) :
    (((c.authenticator (U := U)).clientCredentialsGrant c.blake3 ctx id secret)
      >>= fun user => pure (Verdict.authenticated user)).run
      = c.grant (AuthScope.cacheDiscriminator ctx.scope) .clientCredentials id secret := by
  unfold BasicAuthenticator.clientCredentialsGrant grant
  refine Prog.call_congr fun hit => ?_
  cases hit with
  | some user => rfl
  | none =>
    refine Prog.call_congr fun state => ?_
    obtain ⟨⟨authorization, token, introspection, jwks⟩, client, fetchedAt⟩ := state
    cases token with
    | none => rfl
    | some url =>
      refine Prog.call_congr fun answer => ?_
      cases answer with
      | error e => rfl
      | ok response => exact c.run_store _ _ (machineClaims id) response.expiresIn

/-- **The authenticator, unfolded**: what is no Basic pair is declined, a grant header that selects
nothing fails, and otherwise the selected grant is run. -/
theorem body_eq (ctx : AuthContext S) :
    (c.body ctx : MechProg U _)
      = match ctx.credential with
        | .basic id secret => match c.selectGrant ctx.request with
          | .error e => .ret (.error e)
          | .ok kind => c.grant (AuthScope.cacheDiscriminator ctx.scope) kind id secret
        | _ => .ret (.ok .notApplicable) := by
  unfold body BasicAuthenticator.authenticate
  cases ctx.credential with
  | basic id secret =>
    simp only
    unfold selectGrant
    generalize ctx.request.header grantTypeHeader = selected
    have hallow : (c.authenticator (U := U)).allowPasswordGrant = c.allowPasswordGrant := rfl
    rw [hallow]
    rcases selected with _ | text
    · exact c.run_clientCredentialsGrant ctx id secret
    · by_cases hcc : text = "client_credentials"
      · subst hcc
        exact c.run_clientCredentialsGrant ctx id secret
      · by_cases hpw : text = "password"
        · subst hpw
          cases c.allowPasswordGrant with
          | true => exact c.run_passwordGrant ctx id secret
          | false => rfl
        · simp
  | _ => rfl

/-! ## What stands behind a write

What an entry of the cache rests on: an exchange with the provider by the task that wrote it, for
this grant and pair, and what this task made of the response. -/

/-- The principal task `i` made of a successful response: for a password, the verified claims of
its ID token; for a client, the client itself. -/
def Produced (past : List (CacheEvent (AuthContext S) U)) (i : ℕ) (kind : GrantKind)
    (id : String) (response : TokenResponse) (user : U) : Prop :=
  match kind with
  | .password => ∃ idToken, response.idToken = some idToken ∧ ∃ verification ∈ past,
      verification.task = i ∧ ∃ claims,
        verification.Did (.verifyIdToken idToken.text .skip) (.ok claims)
        ∧ Principal.tryFrom claims = .ok user
  | .clientCredentials => Principal.tryFrom (machineClaims id) = .ok user

omit [AuthScope S] in
theorem Produced.mono {past past' : List (CacheEvent (AuthContext S) U)} {i : ℕ}
    {kind : GrantKind} {id : String} {response : TokenResponse} {user : U}
    (h : Produced past i kind id response user) (hsub : ∀ ev ∈ past, ev ∈ past') :
    Produced past' i kind id response user := by
  cases kind with
  | clientCredentials => exact h
  | password =>
    obtain ⟨idToken, hsome, verification, hmem, htask, claims, hdid, hconv⟩ := h
    exact ⟨idToken, hsome, verification, hsub _ hmem, htask, claims, hdid, hconv⟩

/-- **A principal produced by an exchange**: a successful one of this grant, for this pair, by a
request on this scope, and what its own task made of the response. -/
structure Minted (past : List (CacheEvent (AuthContext S) U)) (scope : Option String)
    (kind : GrantKind) (id secret : String) (user : U) (exchange : CacheEvent (AuthContext S) U)
    (request : TokenRequest) (response : TokenResponse) : Prop where
  mem : exchange ∈ past
  answer : exchange.Did (.requestAsync request) (.ok response)
  presents : request.Presents kind id secret
  scope_eq : AuthScope.cacheDiscriminator exchange.req.scope = scope
  produced : Produced past exchange.task kind id response user

/-- A principal that an exchange has produced stays produced as more happens. -/
theorem Minted.mono {past past' : List (CacheEvent (AuthContext S) U)} {scope : Option String}
    {kind : GrantKind} {id secret : String} {user : U} {exchange : CacheEvent (AuthContext S) U}
    {request : TokenRequest} {response : TokenResponse}
    (h : Minted past scope kind id secret user exchange request response)
    (hsub : ∀ ev ∈ past, ev ∈ past') :
    Minted past' scope kind id secret user exchange request response :=
  ⟨hsub _ h.mem, h.answer, h.presents, h.scope_eq, h.produced.mono hsub⟩

/-- What a write of task `i` rests on: an exchange of its own. -/
def Backed (past : List (CacheEvent (AuthContext S) U)) (i : ℕ) (k : CacheKey) (user : U)
    (expiresIn : Option Duration) : Prop :=
  ∃ scope kind id secret exchange request response,
    Minted past scope kind id secret user exchange request response ∧ exchange.task = i
    ∧ k = c.cacheKey scope kind id secret ∧ expiresIn = response.expiresIn

/-- The operation is about the pair, the grant and the scope of the request. -/
def About (r : AuthContext S) : MechOp U → Prop
  | .cacheGet k => ∃ id secret kind, r.credential = .basic id secret
      ∧ c.selectGrant r.request = .ok kind
      ∧ k = c.cacheKey (AuthScope.cacheDiscriminator r.scope) kind id secret
  | .requestAsync request => ∃ id secret kind, r.credential = .basic id secret
      ∧ c.selectGrant r.request = .ok kind ∧ request.Presents kind id secret
  | _ => True

/-- What a request may return: a principal that an exchange of the selected grant produced, on
this scope, for this id and a secret of the same digest; and a failure changed nothing. -/
def Post (r : AuthContext S) (i : ℕ) (v : CacheView (AuthContext S) U) :
    Except AuthError (Verdict U) → Prop
  | .ok (.authenticated user) => ∃ id secret kind, r.credential = .basic id secret
      ∧ c.selectGrant r.request = .ok kind ∧ ∃ secret' exchange request response,
        Minted v.history (AuthScope.cacheDiscriminator r.scope) kind id secret' user exchange
          request response
        ∧ c.blake3 secret'.toUTF8 = c.blake3 secret.toUTF8
  | .ok .notApplicable => True
  | .error _ => OnlyQuiet i v

def spec : CacheSpec (AuthContext S) U (Except AuthError (Verdict U)) where
  config := c.cacheConfig
  body := c.body
  About := c.About
  Backed := c.Backed
  backed_append := by
    rintro past i k user expiresIn ⟨scope, kind, id, secret, exchange, request, response, hm, h⟩ l
    exact ⟨scope, kind, id, secret, exchange, request, response,
      hm.mono fun ev hev => List.mem_append_right l hev, h⟩
  Post := c.Post

/-! ## Every request is sound

The contract of a cache with provenance, for this authenticator. Both grants go through the same
lemmas. -/

/-- Two equal cache keys are about the same scope, grant and id, and about secrets with the same
digest. The grant is in the key as its cache name. -/
theorem cacheKey_inj {scope scope' : Option String} {kind kind' : GrantKind}
    {id id' secret secret' : String}
    (h : c.cacheKey scope kind id secret = c.cacheKey scope' kind' id' secret') :
    scope = scope' ∧ kind = kind' ∧ id = id'
      ∧ c.blake3 secret.toUTF8 = c.blake3 secret'.toUTF8 :=
  ⟨congrArg CacheKey.scope h, GrantKind.mechanism_inj (congrArg CacheKey.mechanism h),
    congrArg CacheKey.principal h, congrArg CacheKey.digest h⟩

/-- A request for this pair under this grant, whose own operations have been quiet. -/
structure Asking (r : AuthContext S) (i : ℕ) (v : CacheView (AuthContext S) U) (kind : GrantKind)
    (id secret : String) : Prop where
  credential : r.credential = .basic id secret
  selected : c.selectGrant r.request = .ok kind
  quiet : OnlyQuiet i v

omit [Principal U] [AuthScope S] in
/-- A request that is asking goes on asking while others move. -/
theorem Asking.others {r : AuthContext S} {i : ℕ} {v v' : CacheView (AuthContext S) U}
    {kind : GrantKind} {id secret : String} (h : c.Asking r i v kind id secret)
    (ho : View.Others i v v') : c.Asking r i v' kind id secret :=
  ⟨h.credential, h.selected, h.quiet.others ho⟩

omit [Principal U] [AuthScope S] in
/-- It goes on asking after a quiet operation of its own. -/
theorem Asking.after {r : AuthContext S} {i : ℕ} {v : CacheView (AuthContext S) U}
    {kind : GrantKind} {id secret : String} (h : c.Asking r i v kind id secret)
    {ev : CacheEvent (AuthContext S) U} (hq : Quiet ev) :
    c.Asking r i (v.after ev) kind id secret :=
  ⟨h.credential, h.selected, h.quiet.after hq⟩

/-- The last step: what is written is backed by the exchange, and what is returned comes from it. -/
theorem sound_store {r : AuthContext S} {i : ℕ} {v : CacheView (AuthContext S) U}
    {kind : GrantKind} {id secret what : String} {claims : IdentityClaims}
    {exchange : CacheEvent (AuthContext S) U} {request : TokenRequest} {response : TokenResponse}
    (h : c.Asking r i v kind id secret) (htask : exchange.task = i)
    (hminted : ∀ user, Principal.tryFrom claims = .ok user →
      Minted v.history (AuthScope.cacheDiscriminator r.scope) kind id secret user exchange request
        response) :
    c.spec.Sound r i v (store (c.cacheKey (AuthScope.cacheDiscriminator r.scope) kind id secret)
      what claims response.expiresIn) := by
  unfold store
  cases hconv : (principalFrom what claims : Except AuthError U) with
  | error e => exact CacheSpec.sound_ret fun v' ho => h.quiet.others ho
  | ok user =>
    have hm := hminted user (principalFrom_eq_ok.mp hconv)
    refine CacheSpec.sound_call trivial ?_ ?_
    · intro ck user' expiresIn hop
      cases hop
      exact ⟨_, kind, id, secret, exchange, request, response, hm, htask, rfl, rfl⟩
    · intro v₁ ho₁ _ a w _
      refine CacheSpec.sound_ret ?_
      intro v₂ ho₂
      refine ⟨id, secret, kind, h.credential, h.selected, secret, exchange, request, response, ?_,
        rfl⟩
      exact hm.mono fun ev hev => ho₂.mem (List.mem_cons_of_mem _ (ho₁.mem hev))

/-- A successful response becomes a principal: that of its ID token, which is verified first, or
that of the client. -/
theorem sound_redeem {r : AuthContext S} {i : ℕ} {v : CacheView (AuthContext S) U}
    {kind : GrantKind} {id secret : String} {request : TokenRequest} {response : TokenResponse}
    {exchange : CacheEvent (AuthContext S) U} (h : c.Asking r i v kind id secret)
    (hmem : exchange ∈ v.history) (htask : exchange.task = i) (hreq : exchange.req = r)
    (hdid : exchange.Did (.requestAsync request) (.ok response))
    (hpres : request.Presents kind id secret) :
    c.spec.Sound r i v (redeem (c.cacheKey (AuthScope.cacheDiscriminator r.scope) kind id secret)
      kind id response) := by
  have hscope : AuthScope.cacheDiscriminator exchange.req.scope
      = AuthScope.cacheDiscriminator r.scope := by rw [hreq]
  unfold redeem
  cases kind with
  | clientCredentials =>
    exact c.sound_store h htask fun user hconv => ⟨hmem, hdid, hpres, hscope, hconv⟩
  | password =>
    cases htok : response.idToken with
    | none => exact CacheSpec.sound_ret fun v' ho => h.quiet.others ho
    | some idToken =>
      refine CacheSpec.sound_call trivial (by intro _ _ _ hop; cases hop) ?_
      intro v₁ ho₁ _ answer w hx
      have hquiet : Quiet (⟨i, r, .verifyIdToken idToken.text .skip, answer, v₁.world, w⟩
          : CacheEvent (AuthContext S) U) := by
        cases hx
        rfl
      have h₁ := (h.others c ho₁).after c hquiet
      cases answer with
      | error e => exact CacheSpec.sound_ret fun v' ho => h₁.quiet.others ho
      | ok claims =>
        have hold : exchange ∈ v₁.history := ho₁.mem hmem
        -- the verification is the event just added
        exact c.sound_store h₁ htask fun user hconv =>
          Minted.mk (List.mem_cons_of_mem _ hold) hdid hpres hscope
            ⟨idToken, htok, _, List.mem_cons_self, htask.symm, claims, rfl, hconv⟩

/-- A grant: a hit is returned with the provenance of its entry, and after a miss an exchange is
made. -/
theorem sound_grant {r : AuthContext S} {i : ℕ} {v : CacheView (AuthContext S) U}
    {kind : GrantKind} {id secret : String} (h : c.Asking r i v kind id secret) :
    c.spec.Sound r i v (c.grant (AuthScope.cacheDiscriminator r.scope) kind id secret) := by
  unfold grant
  refine CacheSpec.sound_call ⟨id, secret, kind, h.credential, h.selected, rfl⟩
    (by intro _ _ _ hop; cases hop) ?_
  intro v₁ ho₁ hinv₁ hit w₁ hx₁
  cases hit with
  | some user =>
    -- served from the cache: the entry's provenance names the exchange
    refine CacheSpec.sound_ret ?_
    intro v' ho'
    obtain ⟨e, he, _, rfl⟩ := CacheWorld.hit_of_exec hx₁
    obtain ⟨_, past, _, hw, scope, kind', id', secret', exchange, request, response, hm, _, hk, _⟩ :=
      hinv₁.entries _ _ he
    obtain ⟨rfl, rfl, rfl, hdigest⟩ := c.cacheKey_inj hk
    refine ⟨id, secret, kind, h.credential, h.selected, secret', exchange, request, response, ?_,
      hdigest.symm⟩
    exact hm.mono fun ev hev => ho'.mem (List.mem_cons_of_mem _ (hw.happened.past_mem hev))
  | none =>
    have h₁ := (h.others c ho₁).after c (CacheWorld.miss_of_exec hx₁
      : Quiet ⟨i, r, .cacheGet (c.cacheKey (AuthScope.cacheDiscriminator r.scope) kind id secret),
          none, v₁.world, w₁⟩)
    refine CacheSpec.sound_call trivial (by intro _ _ _ hop; cases hop) ?_
    intro v₂ ho₂ _ state w₂ hx₂
    have h₂ := (h₁.others c ho₂).after c (show Quiet
        (⟨i, r, .snapshot, state, v₂.world, w₂⟩ : CacheEvent (AuthContext S) U) by
      cases hx₂; rfl)
    cases hreq : c.tokenRequest kind id secret state with
    | error e => exact CacheSpec.sound_ret fun v' ho => h₂.quiet.others ho
    | ok request =>
      have hpres : request.Presents kind id secret := c.presents_of_tokenRequest hreq
      refine CacheSpec.sound_call ⟨id, secret, kind, h.credential, h.selected, hpres⟩
        (by intro _ _ _ hop; cases hop) ?_
      intro v₃ ho₃ _ answer w₃ hx₃
      have h₃ := (h₂.others c ho₃).after c (show Quiet
          (⟨i, r, .requestAsync request, answer, v₃.world, w₃⟩ : CacheEvent (AuthContext S) U) by
        cases hx₃; rfl)
      cases answer with
      | error e => exact CacheSpec.sound_ret fun v' ho => h₃.quiet.others ho
      | ok response => exact c.sound_redeem h₃ List.mem_cons_self rfl rfl rfl hpres

/-- **The contract holds of every run**: each request is sound, whatever the others do to the cache.
-/
theorem spec_valid : (c.spec (U := U) (S := S)).contract.Valid := by
  apply CacheSpec.valid
  intro r i v hquiet
  show c.spec.Sound r i v (c.body r)
  rw [body_eq]
  cases hcred : r.credential with
  | basic id secret =>
    simp only
    cases hsel : c.selectGrant r.request with
    | error e => exact CacheSpec.sound_ret fun v' ho => hquiet.others ho
    | ok kind => exact c.sound_grant ⟨hcred, hsel, hquiet⟩
  | _ => exact CacheSpec.sound_ret fun _ _ => trivial

end BasicService

end AuthnKit
