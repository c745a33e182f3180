import AuthnKit.Mechanisms.BasicRuns
import AuthnKit.Mechanisms.Revisit

/-!
# AuthnKit — cached principals are never crossed

The invariants of `ApiTokenRuns` and `BasicRuns` speak of secrets with equal digests. Where the
hash function does not collide on the secrets that were presented, they speak of the very secret
of the request.

* **`cached_principals_never_crossed`** — whoever is answered, from the cache or not, is answered
  with a principal that a validation (an exchange) of exactly his secret, on his scope, produced;
  and a request that failed left every entry as it was.
-/

namespace AuthnKit

open Interleave

variable {U S : Type} [Principal U] [AuthScope S]

namespace ApiTokenService

variable (c : ApiTokenService)

/-- Some request of the run presented this key. -/
def Presented (s : ServiceState U S) (key : String) : Prop :=
  ∃ i r, s.Submitted i r ∧ c.keyOf r.credential = some key

omit [Principal U] [AuthScope S] in
/-- A key that a finished request carries was presented in the run. -/
theorem presented_of_returned {s : ServiceState U S} {i : ℕ} {r : AuthContext S}
    {res : Except AuthError (Verdict U)} {key : String} (h : s.Returned i r res)
    (hkey : c.keyOf r.credential = some key) : c.Presented s key :=
  ⟨i, r, h.submitted, hkey⟩

omit [Principal U] [AuthScope S] in
/-- Where one request is made over and over there is nothing to collide with. -/
theorem noCollision_of_single {s : ServiceState U S} {r : AuthContext S}
    (h : ∀ i r', s.Submitted i r' → r' = r) : NoCollision c.blake3 (c.Presented s) := by
  rintro a b ⟨i, ri, hi, ha⟩ ⟨j, rj, hj, hb⟩ _
  rw [h i ri hi] at ha
  rw [h j rj hj] at hb
  exact Option.some.inj (ha.symm.trans hb)

/-- The key a validation was about is one that its request presented, on the scope of that request.
-/
theorem presented_of_validate {s : ServiceState U S} (hs : Reachable c.machine s)
    {ev : CacheEvent (AuthContext S) U} (hev : ev ∈ s.view.history) {key : String}
    {scope : Option String} {a : Except AuthError IdentityClaims}
    (hdid : ev.Did (.validate key scope) a) :
    c.Presented s key ∧ scope = AuthScope.cacheDiscriminator ev.req.scope := by
  have hholds : c.spec.contract.Holds s := hs.holds c.spec_valid
  have habout : c.About ev.req ev.op := hholds.inv.about ev hev
  obtain ⟨task, req, op, ans, pre, post⟩ := ev
  cases hdid
  obtain ⟨hkey, hscope⟩ : c.keyOf req.credential = some key
    ∧ scope = AuthScope.cacheDiscriminator req.scope := habout
  exact ⟨⟨task, req, hholds.submitted _ hev, hkey⟩, hscope⟩

/-- Answers of the fallback stay with the key and the scope they were given for. -/
structure NeverCrossed (s : ServiceState U S) : Prop where
  answered : ∀ i r user key, s.Returned i r (.ok (.authenticated user)) →
    c.keyOf r.credential = some key →
    c.matched (AuthScope.cacheDiscriminator r.scope) key = none →
    ∃ validation ∈ s.view.history, ∃ claims,
      validation.Did (.validate key (AuthScope.cacheDiscriminator r.scope)) (.ok claims)
      ∧ Principal.tryFrom claims = .ok user
  failed : ∀ i r e, s.Returned i r (.error e) → ∀ ev ∈ s.view.history, ev.task = i → Quiet ev

/-- **API keys**: what is behind a principal, by the provenance of its entry, concerns a key of the
same digest; without collisions that is the same key. -/
theorem never_crossed {s : ServiceState U S} (hs : Reachable c.machine s)
    (hcol : NoCollision c.blake3 (c.Presented s)) : c.NeverCrossed s := by
  refine ⟨?_, ?_⟩
  · intro i r user key hret hkey hmatched
    have hpost : c.Post r i s.view (.ok (.authenticated user)) :=
      hs.post (C := c.spec.contract) c.spec_valid hret
    obtain ⟨validation, hmem, key', claims, hdid, hdigest, hconv⟩ := hpost key hkey hmatched
    have hkey' : c.Presented s key' := (c.presented_of_validate hs hmem hdid).1
    have hsame : key' = key := hcol key' key hkey' (c.presented_of_returned hret hkey) hdigest
    subst hsame
    exact ⟨validation, hmem, claims, hdid, hconv⟩
  · intro i r e hret
    have hpost : c.Post r i s.view (.error e) :=
      hs.post (C := c.spec.contract) c.spec_valid hret
    exact hpost

end ApiTokenService

namespace BasicService

variable (c : BasicService)

/-- Some request of the run presented this secret. -/
def Presented (s : ServiceState U S) (secret : String) : Prop :=
  ∃ i r id, s.Submitted i r ∧ r.credential = .basic id secret

/-- The pair a token request proves is the one its request presented. -/
theorem presented_of_exchange {s : ServiceState U S} (hs : Reachable c.machine s)
    {ev : CacheEvent (AuthContext S) U} (hev : ev ∈ s.view.history) {request : TokenRequest}
    {a : Except RequestTokenError TokenResponse} (hdid : ev.Did (.requestAsync request) a)
    {kind : GrantKind} {id secret : String} (hpres : request.Presents kind id secret) :
    Presented s secret := by
  have hholds : c.spec.contract.Holds s := hs.holds c.spec_valid
  have habout : c.About ev.req ev.op := hholds.inv.about ev hev
  obtain ⟨task, req, op, ans, pre, post⟩ := ev
  cases hdid
  obtain ⟨id', secret', kind', hcred, _, hpres'⟩ := habout
  obtain ⟨rfl, rfl, rfl⟩ := hpres.unique hpres'
  exact ⟨task, req, id, hholds.submitted _ hev, hcred⟩

/-- Principals stay with the grant, the pair and the scope they were produced for. -/
structure NeverCrossed (s : ServiceState U S) : Prop where
  answered : ∀ i r id secret user, s.Returned i r (.ok (.authenticated user)) →
    r.credential = .basic id secret →
    ∃ kind, c.selectGrant r.request = .ok kind ∧ ∃ exchange request response,
      Minted s.view.history (AuthScope.cacheDiscriminator r.scope) kind id secret user exchange
        request response
  failed : ∀ i r e, s.Returned i r (.error e) → ∀ ev ∈ s.view.history, ev.task = i → Quiet ev

/-- **Basic pairs**: the same, with the grant and the id in the key as they are and the secret as
its digest. -/
theorem never_crossed {s : ServiceState U S} (hs : Reachable c.machine s)
    (hcol : NoCollision c.blake3 (Presented s)) : c.NeverCrossed s := by
  refine ⟨?_, ?_⟩
  · intro i r id secret user hret hcred
    have hpost : c.Post r i s.view (.ok (.authenticated user)) :=
      hs.post (C := c.spec.contract) c.spec_valid hret
    obtain ⟨id', secret', kind, hcred', hsel, secret'', exchange, request, response, hm, hdigest⟩ :=
      hpost
    obtain ⟨rfl, rfl⟩ := Credential.basic.inj (hcred.symm.trans hcred')
    -- the exchange behind the principal presented the same digest, hence the same secret
    have hsame : secret'' = secret := hcol secret'' secret
      (c.presented_of_exchange hs hm.mem hm.answer hm.presents) ⟨i, r, id, hret.submitted, hcred⟩
      hdigest
    subst hsame
    exact ⟨kind, hsel, exchange, request, response, hm⟩
  · intro i r e hret
    have hpost : c.Post r i s.view (.error e) :=
      hs.post (C := c.spec.contract) c.spec_valid hret
    exact hpost

end BasicService

/-- **Cached principals are never crossed**, in any run of either authenticator in which the hash
function does not collide on the presented secrets. -/
theorem cached_principals_never_crossed :
    (∀ (c : ApiTokenService) (s : ServiceState U S), Reachable c.machine s →
      NoCollision c.blake3 (c.Presented s) → c.NeverCrossed s)
    ∧ ∀ (c : BasicService) (s : ServiceState U S), Reachable c.machine s →
      NoCollision c.blake3 (BasicService.Presented s) → c.NeverCrossed s :=
  ⟨fun c _ hs hcol => c.never_crossed hs hcol, fun c _ hs hcol => c.never_crossed hs hcol⟩

/-! ## One run of each

Each authenticator is shown at work once, with the digest of the one secret that occurs. -/

section Example

/-- A Basic authenticator with the password grant enabled. -/
def passwordLogin : BasicService where
  blake3 := blake3OfAbc
  config := { issuerUrl := "https://issuer", clientId := "app", redirectUrl := "https://app/cb" }
  lib :=
    { parseIdToken := fun _ => .error "not a JWT"
      nonceEquals := fun _ _ => .error "nonce"
      missingTokenUrl := "No token endpoint URL specified"
      authorizeUrl := fun _ => "https://issuer/authorize" }
  allowPasswordGrant := true
  cacheConfig := {}

def passwordIssuer : ProviderState where
  metadata := ⟨"https://issuer/authorize", some "https://issuer/token", none, []⟩
  client :=
    { metadata := ⟨"https://issuer/authorize", some "https://issuer/token", none, []⟩
      clientId := "app"
      clientSecret := none
      redirectUri := "https://app/cb" }
  fetchedAt := abcAfter 0

/-- `ada` with the password `abc`. -/
def adaRequest : AuthContext NoScope where
  request := ((AuthRequestBuilder.mk {}).header "x-grant-type" "password").build
  credential := .basic "ada" "abc"
  scope := .noScope

def adaClaims : IdentityClaims := { subject := some "ada", email := some "ada@example.com" }

def adaUser : User := ⟨"ada@example.com", "ada@example.com"⟩

/-- The first request with her password, in any context that names her, is exchanged, verified and
stored with nobody in between. -/
theorem alone_exchanged {ctx : AuthContext NoScope} (hcred : ctx.credential = .basic "ada" "abc")
    (hselect : passwordLogin.selectGrant ctx.request = .ok .password) (i : ℕ) :
    ∃ v, Alone passwordLogin.machine i ctx ⟨abcStart, []⟩ (passwordLogin.body ctx) v
      (.ret (.ok (.authenticated adaUser))) := by
  set k := passwordLogin.cacheKey none .password "ada" "abc" with hk
  set w₁ : CacheWorld User := { abcStart with cache := (abcStart.cache.get abcStart.now k).2 } with hw₁
  have hdeadline : w₁.now.checkedAdd (CredentialCache.ttl w₁.cache.config none)
      = some (abcAfter 30) := by decide
  obtain ⟨w₂, hins, _⟩ := CacheWorld.exists_exec_insert i w₁ k adaUser (by decide) (by decide)
    hdeadline
  have hbody : (passwordLogin.body ctx : MechProg User _)
      = passwordLogin.grant none .password "ada" "abc" := by
    rw [BasicService.body_eq, hcred]
    simp only [hselect]
    rfl
  rw [hbody]
  apply Exists.intro
  exact .act none w₁ ⟨rfl, rfl⟩ (.act passwordIssuer w₁ rfl
    (.act (.ok ⟨none, some ⟨"jwt"⟩⟩) w₁ rfl (.act (.ok adaClaims) w₁ rfl
      (.act () w₂ hins (.refl _ _)))))

theorem selectGrant_of_header {request : AuthRequest}
    (h : request.header grantTypeHeader = some "password") :
    passwordLogin.selectGrant request = .ok .password := by
  unfold BasicService.selectGrant
  rw [h]
  rfl

/-- A run of that one request. -/
theorem exists_password_run :
    ∃ s : ServiceState User NoScope, Reachable passwordLogin.machine s
      ∧ s.Returned 0 adaRequest (.ok (.authenticated adaUser))
      ∧ ∀ i r, s.Submitted i r → r = adaRequest := by
  have hheader : adaRequest.request.header grantTypeHeader = some "password" := by
    rw [AuthRequest.header_eq_head?]
    show ((AuthRequestBuilder.header {} grantTypeHeader "password").build.headerAll
      grantTypeHeader).head? = some "password"
    rw [AuthRequestBuilder.headerAll_header _ rfl]
    rfl
  have hcred : adaRequest.credential = .basic "ada" "abc" := rfl
  obtain ⟨v, halone⟩ := alone_exchanged hcred (selectGrant_of_header hheader) 0
  obtain ⟨s, hs, _, hrun, hframe⟩ := (Reachable.init abcStart rfl : Reachable
    passwordLogin.machine _).submit rfl halone
  refine ⟨s, hs, hrun, ?_⟩
  intro i r hsub
  by_cases hi : i = 0
  · subst hi
    exact hsub.unique (.inl ⟨_, hrun⟩)
  · exact absurd (hframe i hi) hsub.not_idle

/-- Both, at a run each: a key that is served from the cache, and a password that is exchanged. -/
theorem abc_never_crossed :
    (∃ s : ServiceState User NoScope,
      s.Returned 1 abcRequest (.ok (.authenticated ⟨"ci@example.com", "ci@example.com"⟩))
      ∧ (introspected (.fromSecs 300)).NeverCrossed s)
    ∧ ∃ s : ServiceState User NoScope, s.Returned 0 adaRequest (.ok (.authenticated adaUser))
      ∧ passwordLogin.NeverCrossed s := by
  constructor
  · obtain ⟨s, _, _, hs, _, hret, _, _, _, _, honly⟩ :=
      (introspected (.fromSecs 300)).exists_revisit (fun _ _ _ _ _ => True) (fun _ _ _ _ => True)
        (fun _ _ => True) (introspected_cachedUntil (.fromSecs 300) none (by simp))
        (fun _ _ _ _ _ _ => trivial) (abcAfter 20) (abcWallAfter 20) (by decide) (by decide)
        (fun _ _ _ _ _ _ => trivial)
    exact ⟨s, hret, cached_principals_never_crossed.1 _ s hs.of_restrict
      (ApiTokenService.noCollision_of_single _ honly)⟩
  · obtain ⟨s, hs, hret, honly⟩ := exists_password_run
    refine ⟨s, hret, cached_principals_never_crossed.2 _ s hs ?_⟩
    rintro a b ⟨i, ri, id, hi, ha⟩ ⟨j, rj, id', hj, hb⟩ _
    rw [honly i ri hi] at ha
    rw [honly j rj hj] at hb
    exact (Credential.basic.inj ha).2.symm.trans (Credential.basic.inj hb).2

end Example

end AuthnKit
