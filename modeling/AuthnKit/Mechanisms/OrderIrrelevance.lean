import AuthnKit.Mechanisms.Basic
import AuthnKit.Mechanisms.Bearer

/-!
# AuthnKit — does the registration order matter?

A chain of the three credential mechanisms, in every order, over their two caches. What stands
behind them is a fixed `Deployment`: the validator is a function of key and scope, the
provider's verification a function of the token, the token endpoint a function of the request,
and all orders are compared at the same clock readings. A panic in a cache write ends the
request without an answer (`Option`).

Two of the three always decline (`pairwise_declines`), unless the credential is a bearer token
that carries the API-token prefix **and** has the three segments of a JWT: both tests look at the
same text, and neither excludes the other. Such a token is decided by whichever mechanism is
registered first.

* **`contested_iff`** — what the orders make of such a token, over one deployment.
* **`orderIrrelevant_iff`** — for a prefix and a request, the orders agree over every deployment
  exactly when no such token is presented (or the chain is not consulted at all).
-/

namespace AuthnKit

variable {U S : Type}

/-- The caches of the two mechanisms that have one. -/
structure Caches (U : Type) where
  api : CredentialCache U := {}
  basic : CredentialCache U := {}

/-- The effects of one request: it reads and writes the caches, and may panic. -/
abbrev Local (U : Type) := StateT (Caches U) Option

/-- How the mechanisms are configured, and what stands behind them. -/
structure Deployment where
  blake3 : Blake3
  now : Instant
  wall : SystemTime
  keyPrefix : String
  keyPrefix_ne : keyPrefix ≠ ""
  tokens : List StaticToken
  /-- Name and answers of the fallback validator. -/
  fallback : Option (String × (String → Option String → Except AuthError IdentityClaims))
  maxCacheTtl : Duration
  config : OidcConfig
  lib : OpenIdConnect
  state : ProviderState
  verify : String → NonceCheck → Except AuthError IdentityClaims
  tokenEndpoint : TokenRequest → Except RequestTokenError TokenResponse
  allowPasswordGrant : Bool

namespace Deployment

variable (d : Deployment)

def platform : Platform (Local U) where
  blake3 := d.blake3
  systemNow := pure d.wall

def apiCache : CacheHandle (Local U) U where
  get k := fun c => some ((c.api.get d.now k).1, { c with api := (c.api.get d.now k).2 })
  insert k user expiresIn := fun c =>
    let inserted := c.api.insert d.now d.now k user expiresIn
    if inserted.panicked then none else some ((), { c with api := inserted.cache })

def basicCache : CacheHandle (Local U) U where
  get k := fun c => some ((c.basic.get d.now k).1, { c with basic := (c.basic.get d.now k).2 })
  insert k user expiresIn := fun c =>
    let inserted := c.basic.insert d.now d.now k user expiresIn
    if inserted.panicked then none else some ((), { c with basic := inserted.cache })

def provider : ProviderHandle (Local U) where
  config := d.config
  lib := d.lib
  snapshot := pure d.state
  verifyIdToken token nonce := ExceptT.mk (pure (d.verify token nonce))
  requestAsync request := pure (d.tokenEndpoint request)

def api : ApiTokenAuthenticator (Local U) U where
  keyPrefix := d.keyPrefix
  tokens := d.tokens
  fallback := d.fallback.map fun v => ⟨v.1, fun key scope => ExceptT.mk (pure (v.2 key scope))⟩
  cache := d.apiCache
  maxCacheTtl := d.maxCacheTtl
  keyPrefix_ne := d.keyPrefix_ne

def bearer : BearerAuthenticator (Local U) := ⟨d.provider⟩

def basic : BasicAuthenticator (Local U) U := ⟨d.provider, d.basicCache, d.allowPasswordGrant⟩

variable [Principal U] [AuthScope S]

def mechanisms : List (Authenticator (Local U) U S) :=
  [d.api.authenticator d.platform, d.bearer.authenticator, d.basic.authenticator d.blake3]

end Deployment

/-! ## Comparing answers

Two orders are compared by the result they give, where errors count as the same if a client cannot
tell them apart, and a panic is no answer. -/

/-- The same result, or errors of the same variant, or no answer on both sides. -/
def SameAnswer {α : Type} (x y : Option (Except AuthError α)) : Prop :=
  x.map (Except.mapError AuthError.variant) = y.map (Except.mapError AuthError.variant)

theorem SameAnswer.refl {α : Type} (x : Option (Except AuthError α)) : SameAnswer x x := rfl

theorem SameAnswer.symm {α : Type} {x y : Option (Except AuthError α)} (h : SameAnswer x y) :
    SameAnswer y x :=
  Eq.symm h

/-- Renaming the results, without confusing two, does not change whether answers agree. -/
theorem sameAnswer_map_iff {α β : Type} {f : α → β} (hf : Function.Injective f)
    (x y : Option (Except AuthError α)) :
    SameAnswer (x.map (Except.map f)) (y.map (Except.map f)) ↔ SameAnswer x y := by
  unfold SameAnswer
  rcases x with _ | (e | a) <;> rcases y with _ | (e' | b) <;>
    simp [Except.map, Except.mapError, hf.eq_iff]

namespace AuthChain

variable [AuthScope S]

/-- The answer of a chain to one request, from the caches as they are. -/
def answer (c : AuthChain (Local U) U S) (request : AuthRequest) (credential : Credential)
    (scope : S) (caches : Caches U) : Option (Except AuthError (Outcome U)) :=
  ((c.authenticate request credential scope).run.run caches).map Prod.fst

/-- A chain whose loop resolves `p` answers with what `p` gives, from the caches as they are. -/
theorem answer_of_consult {c : AuthChain (Local U) U S} {request : AuthRequest}
    {credential : Credential} {scope : S}
    (hskip : (AuthScope.isPublic scope && c.publicScopePolicy.skips credential) = false)
    {p : ExceptT AuthError (Local U) U}
    (h : consult ⟨request, credential, scope⟩ c.authenticators = .authenticated <$> p)
    (caches : Caches U) :
    c.answer request credential scope caches
      = ((p.run.run caches).map Prod.fst).map (Except.map Outcome.authenticated) := by
  unfold answer
  rw [authenticate_of_consult hskip h, ExceptT.run_map, StateT.run_map, Option.map_map]
  show ((p.run.run caches).map fun r => (Except.map Outcome.authenticated r.1, r.2)).map Prod.fst
    = _
  rw [Option.map_map]
  rfl

/-- A chain that skips its authenticators answers the same in every order. -/
theorem answer_of_skips {policy : PublicScopePolicy} {request : AuthRequest}
    {credential : Credential} {scope : S} {l : List (Authenticator (Local U) U S)}
    (hskip : (AuthScope.isPublic scope && policy.skips credential) = true)
    (caches : Caches U) :
    (⟨l, policy⟩ : AuthChain (Local U) U S).answer request credential scope caches
      = some (.ok .anonymous) := by
  unfold answer
  rw [authenticate_of_skips (c := ⟨l, policy⟩) hskip]
  rfl

end AuthChain

/-! ## The two answers to a contested token

What each of the two mechanisms makes of it, as a function of what stands behind them. The caches
are read and written on the way. -/

namespace Deployment

/-- How long a validated key may be cached, from the expiry the validator reported. -/
def lifetime (d : Deployment) (expiresAt : Option SystemTime) : Option Duration :=
  (expiresAt.bind fun e => e.durationSince d.wall).map fun remaining => remaining.min d.maxCacheTtl

/-- A cache or clock access that leaves the caches at `c'` and yields `a`, and what follows it. -/
theorem run_access_bind {α β : Type} {x : Local U α} {c c' : Caches U} {a : α}
    (h : x.run c = some (a, c')) (f : α → ExceptT AuthError (Local U) β) :
    ((liftM x : ExceptT AuthError (Local U) α) >>= f).run.run c = (f a).run.run c' := by
  rw [Prog.run_liftM_bind, StateT.run_bind, h]
  rfl

/-- A pure result, and what follows it: a failure ends the computation with the caches as they are.
-/
theorem run_pure_bind {α β : Type} (r : Except AuthError α) (c : Caches U)
    (f : α → ExceptT AuthError (Local U) β) :
    ((ExceptT.mk (pure r) : ExceptT AuthError (Local U) α) >>= f).run.run c
      = match r with
        | .ok a => (f a).run.run c
        | .error e => some (.error e, c) := by
  cases r <;> rfl

/-- The lifetime is computed from a reading of the clock, and leaves the caches. -/
theorem run_cacheTtl (d : Deployment) (c : Caches U) (expiresAt : Option SystemTime) :
    ((d.api (U := U)).cacheTtl d.platform expiresAt).run c = some (d.lifetime expiresAt, c) := by
  cases expiresAt <;> rfl

variable (d : Deployment) [Principal U]

/-- The key the mechanism caches a validated API key under. -/
def cacheKey (name : String) (scope : Option String) (key : String) : CacheKey :=
  CredentialCache.key d.blake3 scope name "" key

/-- **What the API-token mechanism makes of a key**: the first static token that has it, else
the cached principal, else the validator's answer, unless caching it panics. -/
def apiAnswer (caches : Caches U) (scope : Option String) (key : String) :
    Option (Except AuthError U) :=
  match (d.api (U := U)).matched scope key, d.fallback with
  | some token, _ =>
    some (principalFrom "static token principal could not be converted" token.claims)
  | none, none => some (.error
      (.invalidCredential "no static token matches the presented api key for this scope"))
  | none, some (name, validate) =>
    let (hit, cache) := caches.api.get d.now (d.cacheKey name scope key)
    match hit, validate key scope with
    | some user, _ => some (.ok user)
    | none, .error e => some (.error e)
    | none, .ok claims =>
      match principalFrom "api token principal could not be converted" claims with
      | .error e => some (.error e)
      | .ok user =>
        if (cache.insert d.now d.now (d.cacheKey name scope key) user
            (d.lifetime claims.expiresAt)).panicked then none
        else some (.ok user)

/-- **What the bearer mechanism makes of a token**: its verified claims, converted. -/
def bearerAnswer (token : String) : Except AuthError U :=
  (d.verify token .present).bind (principalFrom "bearer identity conversion")

/-- The API-token mechanism's own computation gives this answer. -/
theorem run_api_resolve (caches : Caches U) (scope : Option String) (key : String) :
    (((d.api (U := U)).resolve d.platform scope key).run.run caches).map Prod.fst
      = d.apiAnswer caches scope key := by
  unfold ApiTokenAuthenticator.resolve apiAnswer
  cases (d.api (U := U)).matched scope key with
  | some token => rfl
  | none =>
    cases hf : d.fallback with
    | none => simp [api, hf]
    | some v =>
      obtain ⟨name, validate⟩ := v
      have hfall : (d.api (U := U)).fallback
          = some ⟨name, fun key scope => ExceptT.mk (pure (validate key scope))⟩ := by
        simp [api, hf]
      simp only [hfall]
      unfold ApiTokenAuthenticator.validateRemotely
      -- the cache, then the validator, then the conversion, then the cache again
      have hget : ((d.api (U := U)).cache.get (d.cacheKey name scope key)).run caches
          = some ((caches.api.get d.now (d.cacheKey name scope key)).1,
              { caches with api := (caches.api.get d.now (d.cacheKey name scope key)).2 }) := rfl
      have hkey : CredentialCache.key (d.platform (U := U)).blake3 scope name "" key
          = d.cacheKey name scope key := rfl
      simp only [hkey]
      rw [run_access_bind hget]
      generalize caches.api.get d.now (d.cacheKey name scope key) = got
      obtain ⟨hit, cache⟩ := got
      cases hit with
      | some user => rfl
      | none =>
        rw [run_pure_bind]
        cases validate key scope with
        | error e => rfl
        | ok claims =>
          simp only
          rw [run_access_bind (run_cacheTtl d _ claims.expiresAt), run_pure_bind]
          generalize (principalFrom "api token principal could not be converted" claims
            : Except AuthError U) = converted
          cases converted with
          | error e => rfl
          | ok user =>
            simp only
            have hins : ((d.api (U := U)).cache.insert (d.cacheKey name scope key) user
                  (d.lifetime claims.expiresAt)).run { caches with api := cache }
                = if (cache.insert d.now d.now (d.cacheKey name scope key) user
                    (d.lifetime claims.expiresAt)).panicked then none
                  else some ((), { caches with api := (cache.insert d.now d.now
                    (d.cacheKey name scope key) user (d.lifetime claims.expiresAt)).cache }) := rfl
            rw [Prog.run_liftM_bind, StateT.run_bind, hins]
            split
            · rfl
            · rfl

theorem run_bearer_resolve (caches : Caches U) (token : String) :
    (((d.bearer (U := U)).resolve token).run.run caches).map Prod.fst
      = some (d.bearerAnswer token : Except AuthError U) := by
  unfold BearerAuthenticator.resolve bearerAnswer
  have hverify : (d.bearer (U := U)).provider.verifyIdToken token .present
      = ExceptT.mk (pure (d.verify token .present)) := rfl
  rw [hverify, run_pure_bind]
  cases d.verify token .present with
  | error e => rfl
  | ok claims => rfl

/-! ## When the orders agree

A credential that at most one mechanism claims is decided by that one in every order. The two tests
by which a bearer token is claimed do not exclude one another. -/

variable [AuthScope S]

/-- Every two orders of the mechanisms give the same answer. -/
def OrderIrrelevant (policy : PublicScopePolicy) (request : AuthRequest) (credential : Credential)
    (scope : S) (caches : Caches U) : Prop :=
  ∀ l l' : List (Authenticator (Local U) U S), l.Perm d.mechanisms → l'.Perm d.mechanisms →
    SameAnswer ((⟨l, policy⟩ : AuthChain (Local U) U S).answer request credential scope caches)
      ((⟨l', policy⟩ : AuthChain (Local U) U S).answer request credential scope caches)

/-- A bearer token both mechanisms decide: it carries the prefix and has the shape of a JWT. The two
tests are independent, and each of them is on the whole text. -/
def Contested (credential : Credential) (token key : String) : Prop :=
  credential = .bearer token ∧ token = d.keyPrefix ++ key ∧ isCompactJws token = true

/-- **Unless the token is contested, of every two mechanisms one declines**, by the test that each
of them applies to the credential. -/
theorem pairwise_declines {ctx : AuthContext S}
    (h : ∀ token key, ¬ d.Contested ctx.credential token key) :
    (d.mechanisms : List (Authenticator (Local U) U S)).Pairwise fun a b =>
      AuthChain.DeclinesPurely ctx a ∨ AuthChain.DeclinesPurely ctx b := by
  have hapi : (d.api (U := U)).keyOf ctx.credential = none
      → AuthChain.DeclinesPurely ctx ((d.api (U := U)).authenticator d.platform) :=
    ApiTokenAuthenticator.authenticate_of_keyOf_eq_none
  have hbearer : ¬ BearerAuthenticator.Claims ctx.credential
      → AuthChain.DeclinesPurely ctx (d.bearer.authenticator : Authenticator (Local U) U S) :=
    BearerAuthenticator.authenticate_of_not_claims
  have hbasic : ¬ BasicAuthenticator.Claims ctx.credential
      → AuthChain.DeclinesPurely ctx ((d.basic (U := U)).authenticator d.blake3) :=
    BasicAuthenticator.authenticate_of_not_claims
  unfold mechanisms
  simp only [List.pairwise_cons, List.mem_cons, List.not_mem_nil, or_false, forall_eq_or_imp,
    forall_eq, IsEmpty.forall_iff, implies_true, List.Pairwise.nil, and_true]
  by_cases hkind : ∃ token, ctx.credential = .bearer token
  · obtain ⟨token, hc⟩ := hkind
    have hb := hbasic (by rw [hc]; exact id)
    refine ⟨⟨?_, .inr hb⟩, .inr hb⟩
    cases hk : (d.api (U := U)).keyOf ctx.credential with
    | none => exact .inl (hapi hk)
    | some key =>
      -- the token carries a key, so it must lack the shape of a JWT
      have htoken : token = d.keyPrefix ++ key := by
        have hcred := ApiTokenAuthenticator.keyOf_eq_some.mp hk
        rw [hc] at hcred
        exact Credential.bearer.inj hcred
      refine .inr (hbearer ?_)
      rw [hc]
      intro hshape
      exact h token key ⟨hc, htoken, hshape⟩
  · -- neither of the two bearer mechanisms looks at another credential
    have ha := hapi (by
      cases hc : ctx.credential with
      | bearer token => exact absurd ⟨token, hc⟩ hkind
      | _ => rfl)
    have hb := hbearer (by
      cases hc : ctx.credential with
      | bearer token => exact absurd ⟨token, hc⟩ hkind
      | _ => exact id)
    exact ⟨⟨.inl ha, .inl ha⟩, .inl hb⟩

section Contested

variable {d} {ctx : AuthContext S} {token key : String}

/-- A contested token carries a key, so the API-token mechanism decides it. -/
theorem Contested.api_resolves (h : d.Contested ctx.credential token key) :
    ((d.api (U := U)).authenticator d.platform).authenticate ctx
      = .authenticated
          <$> d.api.resolve d.platform (AuthScope.cacheDiscriminator ctx.scope) key := by
  obtain ⟨hcred, htoken, _⟩ := h
  have hkey : (d.api (U := U)).keyOf ctx.credential = some key := by
    rw [ApiTokenAuthenticator.keyOf_eq_some, hcred, htoken]
    rfl
  exact ApiTokenAuthenticator.authenticate_of_keyOf_eq_some hkey

omit [AuthScope S] in
/-- A contested token has the shape of a JWT, so the bearer mechanism decides it. -/
theorem Contested.bearer_resolves (h : d.Contested ctx.credential token key) :
    (d.bearer.authenticator : Authenticator (Local U) U S).authenticate ctx
      = .authenticated <$> d.bearer.resolve token :=
  BearerAuthenticator.authenticate_of_isCompactJws h.1 h.2.2

theorem Contested.basic_declines (h : d.Contested ctx.credential token key) :
    AuthChain.DeclinesPurely ctx ((d.basic (U := U)).authenticator d.blake3) := by
  apply BasicAuthenticator.authenticate_of_not_claims
  rw [h.1]
  exact id

/-- **In every order a contested token is decided by one of the two mechanisms** that claim it:
whichever stands first. -/
theorem Contested.consult (h : d.Contested ctx.credential token key)
    {l : List (Authenticator (Local U) U S)} (hl : l.Perm d.mechanisms) :
    ∃ p : ExceptT AuthError (Local U) U,
      (p = d.api.resolve d.platform (AuthScope.cacheDiscriminator ctx.scope) key
        ∨ p = d.bearer.resolve token)
      ∧ AuthChain.consult ctx l = .authenticated <$> p := by
  apply AuthChain.consult_resolves
  · intro a ha
    have hmem : a ∈ (d.mechanisms : List (Authenticator (Local U) U S)) := hl.mem_iff.mp ha
    simp only [mechanisms, List.mem_cons, List.not_mem_nil, or_false] at hmem
    rcases hmem with rfl | rfl | rfl
    · exact .inr ⟨_, .inl rfl, h.api_resolves⟩
    · exact .inr ⟨_, .inr rfl, h.bearer_resolves⟩
    · exact .inl h.basic_declines
  · refine ⟨(d.api (U := U)).authenticator d.platform, hl.mem_iff.mpr ?_, _, .inl rfl,
      h.api_resolves⟩
    simp [mechanisms]

end Contested

section Answers

variable {d} {policy : PublicScopePolicy} {request : AuthRequest} {credential : Credential}
  {scope : S} {caches : Caches U} {token key : String}

/-- The answer of a chain in which the API-token mechanism stands first. -/
theorem answer_of_api {l : List (Authenticator (Local U) U S)}
    (hskip : (AuthScope.isPublic scope && policy.skips credential) = false)
    (h : AuthChain.consult ⟨request, credential, scope⟩ l
      = .authenticated <$> d.api.resolve d.platform (AuthScope.cacheDiscriminator scope) key) :
    (⟨l, policy⟩ : AuthChain (Local U) U S).answer request credential scope caches
      = (d.apiAnswer caches (AuthScope.cacheDiscriminator scope) key).map
          (Except.map Outcome.authenticated) := by
  rw [AuthChain.answer_of_consult (c := ⟨l, policy⟩) hskip h, d.run_api_resolve]

/-- The answer of a chain in which the bearer mechanism stands first. -/
theorem answer_of_bearer {l : List (Authenticator (Local U) U S)}
    (hskip : (AuthScope.isPublic scope && policy.skips credential) = false)
    (h : AuthChain.consult ⟨request, credential, scope⟩ l
      = .authenticated <$> d.bearer.resolve token) :
    (⟨l, policy⟩ : AuthChain (Local U) U S).answer request credential scope caches
      = (some (d.bearerAnswer token)).map (Except.map Outcome.authenticated) := by
  rw [AuthChain.answer_of_consult (c := ⟨l, policy⟩) hskip h, d.run_bearer_resolve]

/-- **The first of the two mechanisms decides a contested token**, so the orders agree about it
exactly when what the list, the cache and the validator say of its key is what the provider's
verification says of the token. -/
theorem contested_iff (hskip : (AuthScope.isPublic scope && policy.skips credential) = false)
    (hc : d.Contested credential token key) :
    d.OrderIrrelevant policy request credential scope caches
      ↔ SameAnswer (d.apiAnswer caches (AuthScope.cacheDiscriminator scope) key)
          (some (d.bearerAnswer token)) := by
  have hctx : d.Contested (AuthContext.mk request credential scope).credential token key := hc
  constructor
  · intro h
    let api : Authenticator (Local U) U S := d.api.authenticator d.platform
    let bearer : Authenticator (Local U) U S := d.bearer.authenticator
    let basic : Authenticator (Local U) U S := d.basic.authenticator d.blake3
    have hswap : [bearer, api, basic].Perm (d.mechanisms (U := U) (S := S)) :=
      List.Perm.swap api bearer [basic]
    have hsame := h [api, bearer, basic] [bearer, api, basic] (List.Perm.refl _) hswap
    rw [answer_of_api hskip (AuthChain.consult_cons_of_resolves hctx.api_resolves _),
      answer_of_bearer hskip (AuthChain.consult_cons_of_resolves hctx.bearer_resolves _)] at hsame
    exact (sameAnswer_map_iff (fun _ _ h => Outcome.authenticated.inj h) _ _).mp hsame
  · intro hsame l l' hl hl'
    -- each order answers with one of the two, and the two agree
    have hans : ∀ l : List (Authenticator (Local U) U S), l.Perm d.mechanisms →
        SameAnswer ((⟨l, policy⟩ : AuthChain (Local U) U S).answer request credential scope caches)
          ((some (d.bearerAnswer token)).map (Except.map Outcome.authenticated)) := by
      intro l hl
      obtain ⟨p, hp | hp, hcons⟩ := hctx.consult hl
      · rw [answer_of_api hskip (hp ▸ hcons)]
        exact (sameAnswer_map_iff (fun _ _ h => Outcome.authenticated.inj h) _ _).mpr hsame
      · rw [answer_of_bearer hskip (hp ▸ hcons)]
        exact SameAnswer.refl _
    exact Eq.trans (hans l hl) (hans l' hl').symm

end Answers

/-- Whether a chain answers a request without consulting anyone: a public scope, and a policy that
wants nobody asked or a request with nothing to look at. -/
theorem skips_iff {policy : PublicScopePolicy} {credential : Credential} {scope : S} :
    (AuthScope.isPublic scope && policy.skips credential) = true
      ↔ AuthScope.isPublic scope = true ∧ (policy = .alwaysAnonymous ∨ credential = .none) := by
  cases policy <;> simp [PublicScopePolicy.skips]

theorem orderIrrelevant_of_skips {policy : PublicScopePolicy} {request : AuthRequest}
    {credential : Credential} {scope : S} {caches : Caches U}
    (hskip : (AuthScope.isPublic scope && policy.skips credential) = true) :
    d.OrderIrrelevant policy request credential scope caches := by
  intro l l' _ _
  rw [AuthChain.answer_of_skips hskip, AuthChain.answer_of_skips hskip]
  exact SameAnswer.refl _

/-- **Without a contested token the order is irrelevant**: of every two mechanisms one declines, and
whoever declines may stand anywhere. -/
theorem orderIrrelevant_of_not_contested {policy : PublicScopePolicy} {request : AuthRequest}
    {credential : Credential} {scope : S} {caches : Caches U}
    (h : ∀ token key, ¬ d.Contested credential token key) :
    d.OrderIrrelevant policy request credential scope caches := by
  intro l l' hl hl'
  have hctx : ∀ token key,
      ¬ d.Contested (AuthContext.mk request credential scope).credential token key := h
  have hpair := d.pairwise_declines (U := U) hctx
  have hconsult : AuthChain.consult ⟨request, credential, scope⟩ l
      = AuthChain.consult ⟨request, credential, scope⟩ l' := by
    rw [← AuthChain.consult_perm hl.symm hpair, ← AuthChain.consult_perm hl'.symm hpair]
  unfold AuthChain.answer AuthChain.authenticate
  rw [hconsult]
  exact SameAnswer.refl _

/-! ### Every deployment

The order is said to be irrelevant by construction, so the condition must not depend on what happens
to stand behind the mechanisms. It is exact over all of that. -/

/-- The provider accepts no text but those in `jwt`, the validly signed JWTs. -/
def Rejects (jwt : String → Prop) : Prop :=
  ∀ token nonce, ¬ jwt token → ∃ e, d.verify token nonce = .error e

/-- Behind the prefix, a validator that knows every key and a provider that accepts no token. -/
def divided (keyPrefix : String) (hne : keyPrefix ≠ "") : Deployment where
  blake3 := fun _ => Vector.replicate 32 0
  now := ⟨0, Instant.zero_lt_max⟩
  wall := .epoch
  keyPrefix := keyPrefix
  keyPrefix_ne := hne
  tokens := []
  fallback := some ("validator", fun _ _ => .ok (IdentityClaims.new .introspection))
  maxCacheTtl := .fromSecs 300
  config := { issuerUrl := "https://issuer", clientId := "app", redirectUrl := "https://app/cb" }
  lib :=
    { parseIdToken := fun _ => .error "not a JWT"
      nonceEquals := fun _ _ => .error "nonce"
      missingTokenUrl := "No token endpoint URL specified"
      authorizeUrl := fun _ => "https://issuer/authorize" }
  state :=
    { metadata := ⟨"https://issuer/authorize", none, none, []⟩
      client := ⟨⟨"https://issuer/authorize", none, none, []⟩, "app", none, "https://app/cb"⟩
      fetchedAt := ⟨0, Instant.zero_lt_max⟩ }
  verify := fun _ _ => .error (.invalidCredential "malformed id token: not a JWT")
  tokenEndpoint := fun _ => .error (.request "unreachable")
  allowPasswordGrant := false

/-- There the two mechanisms disagree about every token: one of them accepts it, or fails to convert
its claims, and the other one rejects it. -/
theorem divided_disagrees (keyPrefix : String) (hne : keyPrefix ≠ "") (scope : Option String)
    (key token : String) :
    ¬ SameAnswer ((divided keyPrefix hne).apiAnswer ({} : Caches U) scope key)
      (some ((divided keyPrefix hne).bearerAnswer token)) := by
  have hbearer : (divided keyPrefix hne).bearerAnswer (U := U) token
      = .error (.invalidCredential "malformed id token: not a JWT") := rfl
  -- a key is accepted, unless its claims are no principal of the application
  have hapi : (divided keyPrefix hne).apiAnswer ({} : Caches U) scope key
      = some (principalFrom "api token principal could not be converted" (.new .introspection)) := by
    have hroom : ∀ (cache : CredentialCache U) (k : CacheKey) (user : U),
        cache.config = {} → (cache.insert ⟨0, Instant.zero_lt_max⟩ ⟨0, Instant.zero_lt_max⟩ k user
          none).panicked = false := by
      intro cache k user hconfig
      refine Bool.eq_false_iff.mpr fun hpanicked => ?_
      have hadd := (CredentialCache.insert_panicked_iff.mp hpanicked).2.2
      rw [hconfig] at hadd
      exact absurd hadd (by decide)
    show (match (principalFrom "api token principal could not be converted"
        (.new .introspection) : Except AuthError U) with
      | .error e => _
      | .ok user => _) = _
    cases (principalFrom "api token principal could not be converted" (.new .introspection) :
      Except AuthError U) with
    | error e => rfl
    | ok user => exact if_neg (Bool.eq_false_iff.mp (hroom _ _ _ rfl))
  rw [hbearer, hapi]
  unfold principalFrom SameAnswer
  cases (Principal.tryFrom (IdentityClaims.new .introspection) : Except String U) with
  | ok user => simp [Except.mapError]
  | error e => simp [Except.mapError, AuthError.variant]

/-- **When registration order is irrelevant.** For a prefix, a request and its scope, the orders of
the three mechanisms agree, whatever list, validator, provider, token endpoint and caches stand
behind them, exactly when the chain is not consulted or the credential is not a bearer token that
both carries the prefix and has the shape of a JWT. -/
theorem orderIrrelevant_iff {keyPrefix : String} (hne : keyPrefix ≠ "") (jwt : String → Prop)
    (policy : PublicScopePolicy) (request : AuthRequest) (credential : Credential) (scope : S) :
    (∀ d : Deployment, d.keyPrefix = keyPrefix → d.Rejects jwt → ∀ caches : Caches U,
        d.OrderIrrelevant policy request credential scope caches)
      ↔ (AuthScope.isPublic scope = true
          ∧ (policy = .alwaysAnonymous ∨ credential = .none))
        ∨ ∀ token key, credential = .bearer token → token = keyPrefix ++ key →
          isCompactJws token = false := by
  rw [← skips_iff]
  constructor
  · intro h
    by_cases hskip : (AuthScope.isPublic scope && policy.skips credential) = true
    · exact .inl hskip
    · refine .inr fun token key hcredential htoken => ?_
      by_contra hshape
      -- a token that both mechanisms claim, and a deployment where they disagree about it
      have hcontested : (divided keyPrefix hne).Contested credential token key :=
        ⟨hcredential, htoken, Bool.of_not_eq_false hshape⟩
      have hagree := h (divided keyPrefix hne) rfl (fun _ _ _ => ⟨_, rfl⟩) {}
      exact divided_disagrees keyPrefix hne _ key token
        ((contested_iff (Bool.eq_false_iff.mpr hskip) hcontested).mp hagree)
  · rintro (hskip | hshape) d rfl - caches
    · exact d.orderIrrelevant_of_skips hskip
    · refine d.orderIrrelevant_of_not_contested fun token key hcontested => ?_
      obtain ⟨hcredential, htoken, hjws⟩ := hcontested
      exact absurd hjws (by rw [hshape token key hcredential htoken]; decide)

/-- Behind the prefix `sptok_` an API key without dots gets one answer in every order, here from a
validator that knows it; about one with two dots, deployments can be found that disagree. -/
theorem dotless_orderIrrelevant :
    (divided "sptok_" sptok_ne_empty).OrderIrrelevant .optional {} (.bearer "sptok_abc123")
        NoScope.noScope ({} : Caches User)
      ∧ ¬ ∀ d : Deployment, d.keyPrefix = "sptok_" → d.Rejects (fun _ => False) →
        ∀ caches : Caches User,
          d.OrderIrrelevant .optional {} (.bearer "sptok_a.b.c") NoScope.noScope caches := by
  constructor
  · refine (orderIrrelevant_iff sptok_ne_empty (fun _ => False) _ _ _ _).mpr
      (.inr fun token key hcredential _ => ?_) _ rfl (fun _ _ _ => ⟨_, rfl⟩) _
    rw [← Credential.bearer.inj hcredential]
    decide
  · intro h
    rcases (orderIrrelevant_iff sptok_ne_empty _ _ _ _ _).mp h with ⟨-, hskip⟩ | hshape
    · rcases hskip with hpolicy | hnone
      · cases hpolicy
      · cases hnone
    · exact absurd (hshape "sptok_a.b.c" "a.b.c" rfl (by decide)) (by decide)

/-! ## A token both mechanisms claim

A key on the list, with two dots in it, under the prefix of the crate's own tests. -/

/-- The static token of a list entry for principal `ci` whose secret contains two dots. -/
def dottedToken : StaticToken where
  secret := "a.b.c"
  claims := IdentityClaims.new .staticToken
    |>.withSubject "ci" |>.withPreferredUsername "ci" |>.withEmail "ci"
  scopes := none
  secret_ne := by decide

example : StaticToken.ofSpec { token := "a.b.c", principal := "ci" } = .ok dottedToken := rfl

/-- That list under the prefix `sptok_`, without a validator, beside a provider that accepts
no token. -/
def dottedDeployment : Deployment :=
  { divided "sptok_" sptok_ne_empty with
    tokens := [dottedToken]
    fallback := none }

/-- **The order decides whether `sptok_a.b.c` is accepted**: the API-token mechanism finds it on its
list, the bearer mechanism takes it for a JWT and rejects it. -/
theorem dottedDeployment_not_orderIrrelevant :
    ¬ dottedDeployment.OrderIrrelevant .optional {} (.bearer "sptok_a.b.c") NoScope.noScope
      ({} : Caches User) := by
  intro h
  have hcont : dottedDeployment.Contested (.bearer "sptok_a.b.c") "sptok_a.b.c" "a.b.c" :=
    ⟨rfl, by decide, by decide⟩
  have hsame := (contested_iff rfl hcont).mp h
  have hapi : dottedDeployment.apiAnswer ({} : Caches User) none "a.b.c"
      = some (.ok ⟨"ci", "ci"⟩) := by rfl
  have hbearer : dottedDeployment.bearerAnswer (U := User) "sptok_a.b.c"
      = .error (.invalidCredential "malformed id token: not a JWT") := by rfl
  have hscope : AuthScope.cacheDiscriminator NoScope.noScope = none := rfl
  rw [hscope, hapi, hbearer] at hsame
  simp [SameAnswer, Except.mapError] at hsame

end Deployment

end AuthnKit
