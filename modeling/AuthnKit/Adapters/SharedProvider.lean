import AuthnKit.Adapters.Middleware
import AuthnKit.Foundation.Calls
import AuthnKit.Mechanisms.Bearer
import AuthnKit.Mechanisms.Session
import AuthnKit.Oidc.Discovery
import AuthnKit.Oidc.StaleKeys

/-!
# AuthnKit — one provider behind a whole gateway

The mechanisms of a gateway, the login flow and whatever else holds the provider share one
`OidcProvider`: requests verify tokens on it, refresh it and read its snapshot at the same time, and
a request that is dropped drops its verification in the middle.

* **`ProviderService.shared`** — the provider, as those who share it see it.
* **`OidcGateway.machine`** — requests to the gateway, interleaved, and what else the host does.
* **`issuer_behind_everyone`** — whoever was identified by a token was so with the issuer's keys.
* **`discovery_sheltered`** — whatever the requests carry, the issuer is not asked more often.
-/

namespace AuthnKit

open Interleave

variable {U S X H R : Type} {Y : X → Type}

/-! ## Sharing a provider

A caller makes calls and does other things of its own. A call is one operation to it, and a program
of the provider's when the run is looked at more closely. -/

/-- What is done besides calling the provider: it may be looked at, and asked for tokens. -/
inductive HostOp (X : Type) where
  | snapshot
  | requestAsync (request : TokenRequest)
  | other (x : X)

abbrev HostOp.Answer (Y : X → Type) : HostOp X → Type
  | snapshot => ProviderState
  | requestAsync _ => Except RequestTokenError TokenResponse
  | other x => Y x

abbrev HostProg (Y : X → Type) :=
  CallerProg ProviderCall (Except AuthError (Option IdentityClaims)) (HostOp.Answer Y)

namespace HostProg

def call (call : ProviderCall) : HostProg Y (Except AuthError (Option IdentityClaims)) :=
  Prog.perform (CallerOp.invoke call)

def ask (op : HostOp X) : HostProg Y (op.Answer Y) := Prog.perform (CallerOp.own op)

end HostProg

/-- A snapshot is the current one; everything else answers arbitrarily. -/
def HostOp.exec (w : ProviderWorld) : (op : HostOp X) → op.Answer Y → Prop
  | .snapshot, state => state = w.state.value
  | .requestAsync _, _ => True
  | .other _, _ => True

/-- Looking at the snapshot does not wait. -/
def HostOp.Awaits : HostOp X → Prop
  | .snapshot => False
  | _ => True

namespace ProviderService

open AuthError

def shared (c : ProviderService) : ProviderHandle (HostProg Y) where
  config := c.config
  lib := c.lib
  snapshot := HostProg.ask .snapshot
  verifyIdToken token nonce := ExceptT.mk do
    match ← HostProg.call (.verifyIdToken token nonce) with
    | .ok (some claims) => return .ok claims
    -- only a refresh has no claims to return
    | .ok none => return .error (.internal "no claims")
    | .error e => return .error e
  requestAsync request := HostProg.ask (.requestAsync request)

variable {c : ProviderService}

/-- **Opened up, a verification on the shared provider is the provider's own.** -/
theorem inlined_verify (c : ProviderService) (token : String) (nonce : NonceCheck) :
    inlined c.body ((c.shared (Y := Y)).verifyIdToken token nonce).run
      = .call (.enter (.verifyIdToken token nonce)) fun n =>
          (c.provider.verifyIdToken token nonce).run.rename (.inner n (.verifyIdToken token nonce)) := by
  refine Prog.call_congr fun n => ?_
  have hbody : c.body (.verifyIdToken token nonce)
      = (c.provider.verifyIdToken token nonce).run >>= fun result => .ret (result.map some) := by
    show (c.provider.verifyIdToken token nonce >>= fun claims => pure (some claims)).run = _
    rw [ExceptT.run_bind]
    congr 1
    funext result
    cases result <;> rfl
  rw [hbody, Prog.rename_bind, Prog.bind_assoc]
  refine (congrArg _ (funext fun result => ?_)).trans (Prog.bind_ret _)
  cases result <;> rfl

theorem returns_shared_verify {token : String} {nonce : NonceCheck}
    {tr : List (Σ op : CallerOp ProviderCall (HostOp X), op.Answer _ (HostOp.Answer Y))}
    {claims : IdentityClaims}
    (h : Prog.Returns ((c.shared (Y := Y)).verifyIdToken token nonce).run tr (.ok claims)) :
    ⟨.invoke (.verifyIdToken token nonce), .ok (some claims)⟩ ∈ tr := by
  obtain ⟨answer, rest, rfl, hrest⟩ := Prog.returns_call_iff.mp h
  rcases answer with e | _ | claims'
  · cases (Prog.returns_ret_iff.mp hrest).2
  · cases (Prog.returns_ret_iff.mp hrest).2
  · obtain ⟨rfl, hclaims⟩ := Prog.returns_ret_iff.mp hrest
    cases hclaims
    exact List.mem_singleton.mpr rfl

end ProviderService

/-! ## The gateway

Mechanisms that verify on the shared provider, beside others that may use it in ways of their own,
and the host, which refreshes it and completes logins. -/

/-- A mechanism that verifies on the shared provider, or any other. -/
inductive SharedMechanism (U S : Type) {X : Type} (Y : X → Type) where
  | bearer
  | session (codec : SessionCodec) (login : Option (LoginFlow (HostProg Y)))
  | other (a : Authenticator (HostProg Y) U S)

/-- A gateway over one provider, and what else the host does with it: logins are completed, keys
are refreshed. -/
structure OidcGateway (U S H R : Type) {X : Type} (Y : X → Type) where
  provider : ProviderService
  mechanisms : List (SharedMechanism U S Y)
  scopes : AuthRequest → S
  publicScopePolicy : PublicScopePolicy
  elsewhere : H → HostProg Y R

inductive HostCall (H : Type) where
  | authenticate (request : AuthRequest)
  | elsewhere (h : H)

namespace OidcGateway

variable [Principal U] [AuthScope S] (g : OidcGateway U S H R Y)

def authenticator : SharedMechanism U S Y → Authenticator (HostProg Y) U S
  | .bearer => BearerAuthenticator.authenticator ⟨g.provider.shared⟩
  | .session codec login => SessionAuthenticator.authenticator ⟨g.provider.shared, codec, login⟩
  | .other a => a

def gateway : AuthGateway (HostProg Y) U S where
  scopes := g.scopes
  chain := { authenticators := g.mechanisms.map g.authenticator
             publicScopePolicy := g.publicScopePolicy }

def body : HostCall H → HostProg Y (Except AuthError (Option U) ⊕ R)
  | .authenticate request => (g.gateway.authenticate request).run >>= fun answer => .ret (.inl answer)
  | .elsewhere h => g.elsewhere h >>= fun answer => .ret (.inr answer)

/-- What the mechanisms get to see of a request. -/
def context (request : AuthRequest) : AuthContext S where
  request := request
  credential := Credential.fromRequest request
  scope := g.scopes request

def host (M : Machine ProviderCall ProviderOp ProviderOp.Answer ProviderWorld
    (Except AuthError (Option IdentityClaims))) :
    Callers M (HostCall H) (HostOp.Answer Y) Unit (Except AuthError (Option U) ⊕ R) where
  body := g.body
  init _ := True
  exec _ w _ op a _ := HostOp.exec w op a
  abandon _ _ _ op _ := HostOp.Awaits op
  env w _ w' _ := M.env w w'
  env_service _ _ _ _ h := .inl h

/-- The host's requests, interleaved over its provider `M`. -/
abbrev machine (M : Machine ProviderCall ProviderOp ProviderOp.Answer ProviderWorld
    (Except AuthError (Option IdentityClaims))) := callers (g.host M)

abbrev Op (X : Type) := InlinedOp ProviderCall ProviderOp (HostOp X)

abbrev HostEvent (H : Type) (Y : X → Type) :=
  Event (HostCall H) (Op X) (InlinedOp.Answer ProviderOp.Answer (HostOp.Answer Y))
    (CallWorld ProviderWorld Unit)

abbrev Run (U H R : Type) (Y : X → Type) :=
  State (HostCall H) (Op X) (InlinedOp.Answer ProviderOp.Answer (HostOp.Answer Y))
    (CallWorld ProviderWorld Unit) (Except AuthError (Option U) ⊕ R)

/-! ## Who a request is identified as

Each mechanism is looked at on its own first, over the calls it makes and what they return. What the
provider did in these calls comes later. -/

abbrev Trace (Y : X → Type) :=
  List (Σ op : CallerOp ProviderCall (HostOp X),
    op.Answer (Except AuthError (Option IdentityClaims)) (HostOp.Answer Y))

/-- A verification of the token returned the claims. -/
def Answered (tr : Trace Y) (token : String) (nonce : NonceCheck) (claims : IdentityClaims) : Prop :=
  ⟨.invoke (.verifyIdToken token nonce), .ok (some claims)⟩ ∈ tr

/-- What a mechanism identifies `user` by, where `verified` says which claims were verified. -/
inductive Identified (verified : String → NonceCheck → IdentityClaims → Prop) (ctx : AuthContext S) :
    SharedMechanism U S Y → U → Prop where
  | bearer {token : String} {claims : IdentityClaims} {user : U}
      (hcredential : ctx.credential = .bearer token) (hshape : isCompactJws token = true)
      (hverified : verified token .present claims)
      (huser : principalFrom "bearer identity conversion" claims = .ok user) :
      Identified verified ctx .bearer user
  | session {codec : SessionCodec} {login : Option (LoginFlow (HostProg Y))} {raw : String}
      {session : Session} {claims : IdentityClaims} {user : U}
      (hcookie : ctx.request.cookie (AuthScope.sessionCookieName ctx.scope) = some raw)
      (hdecode : codec.decode raw = .ok session) (hverified : verified session.idToken .present claims)
      (huser : principalFrom "session identity conversion" claims = .ok user) :
      Identified verified ctx (.session codec login) user
  /-- Another mechanism may verify what it likes, and sees only claims that were verified. -/
  | other {a : Authenticator (HostProg Y) U S} {user : U} {tr : Trace Y}
      (h : Prog.Returns (a.authenticate ctx).run tr (.ok (.authenticated user)))
      (hverified : ∀ token nonce claims, Answered tr token nonce claims →
        verified token nonce claims) :
      Identified verified ctx (.other a) user

def Declined (ctx : AuthContext S) : SharedMechanism U S Y → Prop
  | .bearer => ¬ BearerAuthenticator.Claims ctx.credential
  | .session _ _ => ctx.request.cookie (AuthScope.sessionCookieName ctx.scope) = none
      ∧ ctx.credential.isNone = false
  | .other a => ∃ tr, Prog.Returns (a.authenticate ctx).run tr (.ok .notApplicable)

/-- A verdict, as the mechanism that gave it came to it. -/
def Accounts (verified : String → NonceCheck → IdentityClaims → Prop) (ctx : AuthContext S)
    (k : SharedMechanism U S Y) : Verdict U → Prop
  | .authenticated user => Identified verified ctx k user
  | .notApplicable => Declined ctx k

section Mechanisms

variable {g} {c : ProviderService} {ctx : AuthContext S} {tr : Trace Y} {verdict : Verdict U}
  {verified verified' : String → NonceCheck → IdentityClaims → Prop}

/-- Claims that are verified in a weaker sense still identify whom they did. -/
theorem Identified.mono {k : SharedMechanism U S Y} {user : U} (h : Identified verified ctx k user)
    (hsub : ∀ token nonce claims, verified token nonce claims → verified' token nonce claims) :
    Identified verified' ctx k user := by
  cases h with
  | bearer hcredential hshape hverified huser =>
    exact .bearer hcredential hshape (hsub _ _ _ hverified) huser
  | session hcookie hdecode hverified huser =>
    exact .session hcookie hdecode (hsub _ _ _ hverified) huser
  | other h hverified =>
    exact .other h fun token nonce claims hmem => hsub _ _ _ (hverified token nonce claims hmem)

/-- The bearer mechanism declines what has not the shape of a token, and otherwise asks for one
verification, whose claims become the principal. -/
theorem accounts_bearer
    (h : Prog.Returns ((⟨c.shared⟩ : BearerAuthenticator (HostProg Y)).authenticate ctx).run tr
      (.ok verdict)) : Accounts (Answered tr) ctx (.bearer : SharedMechanism U S Y) verdict := by
  by_cases hclaims : BearerAuthenticator.Claims ctx.credential
  · obtain ⟨token, hcredential, hshape⟩ : ∃ token, ctx.credential = .bearer token
        ∧ isCompactJws token = true := by
      cases hc : ctx.credential with
      | bearer token => exact ⟨token, rfl, by rw [hc] at hclaims; exact hclaims⟩
      | _ => rw [hc] at hclaims; exact hclaims.elim
    rw [BearerAuthenticator.authenticate_of_isCompactJws hcredential hshape, map_eq_pure_bind] at h
    obtain ⟨tr₁, user, tr₂, rfl, hresolve, hret⟩ := Prog.returns_ok_bind h
    obtain ⟨rfl, hverdict⟩ := Prog.returns_ret_iff.mp hret
    obtain ⟨tr₁, claims, tr₂, rfl, hverify, hprincipal⟩ := Prog.returns_ok_bind hresolve
    obtain ⟨rfl, huser⟩ := Prog.returns_ret_iff.mp hprincipal
    cases hverdict
    exact .bearer hcredential hshape (by simpa [Answered] using
      ProviderService.returns_shared_verify hverify) huser.symm
  · rw [BearerAuthenticator.authenticate_of_not_claims hclaims] at h
    obtain ⟨rfl, hverdict⟩ := Prog.returns_ret_iff.mp h
    cases hverdict
    exact hclaims

omit [Principal U] [AuthScope S] in
/-- A challenge is an error, whatever becomes of the login it redirects into. -/
theorem not_returns_challenge {a : SessionAuthenticator (HostProg Y)} {fallback : AuthError}
    (h : Prog.Returns ((do throw (← ExceptT.lift (a.challenge ctx fallback)) :
      ExceptT AuthError (HostProg Y) (Verdict U))).run tr (.ok verdict)) : False := by
  obtain ⟨tr₁, e, tr₂, rfl, -, hthrow⟩ := Prog.returns_ok_bind h
  cases (Prog.returns_ret_iff.mp hthrow).2

/-- The session mechanism declines a request with another credential and no session cookie, and
otherwise succeeds only with the claims of one verification, of the token in the cookie. -/
theorem accounts_session {codec : SessionCodec} {login : Option (LoginFlow (HostProg Y))}
    (h : Prog.Returns ((⟨c.shared, codec, login⟩ : SessionAuthenticator (HostProg Y)).authenticate
      ctx).run tr (.ok verdict)) :
    Accounts (Answered tr) ctx (.session codec login : SharedMechanism U S Y) verdict := by
  unfold SessionAuthenticator.authenticate at h
  cases hcookie : ctx.request.cookie (AuthScope.sessionCookieName ctx.scope) with
  | none =>
    simp only [hcookie] at h
    by_cases hcredential : ctx.credential.isNone = true
    · simp only [hcredential, Bool.not_true, Bool.false_eq_true, if_false] at h
      exact (not_returns_challenge h).elim
    · have hother : ctx.credential.isNone = false := Bool.eq_false_iff.mpr hcredential
      simp only [hother, Bool.not_false, if_true] at h
      obtain ⟨rfl, hverdict⟩ := Prog.returns_ret_iff.mp h
      cases hverdict
      exact ⟨hcookie, hother⟩
  | some raw =>
    simp only [hcookie] at h
    cases hdecode : codec.decode raw with
    | error e =>
      simp only [hdecode] at h
      exact (not_returns_challenge h).elim
    | ok session =>
      simp only [hdecode] at h
      rw [ExceptT.run_bind_lift] at h
      obtain ⟨tr₁, result, tr₂, rfl, hverify, hrest⟩ := Prog.returns_bind_iff.mp h
      cases result with
      | error e =>
        simp only at hrest
        split at hrest
        · exact (not_returns_challenge hrest).elim
        · cases (Prog.returns_ret_iff.mp hrest).2
      | ok claims =>
        simp only at hrest
        obtain ⟨tr₂, user, tr₃, rfl, hprincipal, hret⟩ := Prog.returns_ok_bind hrest
        obtain ⟨rfl, huser⟩ := Prog.returns_ret_iff.mp hprincipal
        obtain ⟨rfl, hverdict⟩ := Prog.returns_ret_iff.mp hret
        cases hverdict
        exact .session hcookie hdecode (by simpa [Answered] using
          ProviderService.returns_shared_verify hverify) huser.symm

/-- **Every verdict is accounted for** by the calls of the mechanism that gave it. -/
theorem accounts (k : SharedMechanism U S Y)
    (h : Prog.Returns ((g.authenticator k).authenticate ctx).run tr (.ok verdict)) :
    Accounts (Answered tr) ctx k verdict := by
  cases k with
  | bearer => exact accounts_bearer h
  | session codec login => exact accounts_session h
  | other a =>
    cases verdict with
    | authenticated user => exact .other h fun _ _ _ hmem => hmem
    | notApplicable => exact ⟨tr, h⟩

/-- How the mechanisms were asked, one after the other: everybody declined, or those before `k` did,
and `k` identified the user. -/
inductive Consulted (verified : String → NonceCheck → IdentityClaims → Prop) (ctx : AuthContext S) :
    List (SharedMechanism U S Y) → Verdict U → Prop where
  | unclaimed {ks : List (SharedMechanism U S Y)} (h : ∀ k ∈ ks, Declined ctx k) :
      Consulted verified ctx ks .notApplicable
  | identified {before after : List (SharedMechanism U S Y)} {k : SharedMechanism U S Y} {user : U}
      (hbefore : ∀ k' ∈ before, Declined ctx k') (h : Identified verified ctx k user) :
      Consulted verified ctx (before ++ k :: after) (.authenticated user)

theorem Consulted.mono {ks : List (SharedMechanism U S Y)} (h : Consulted verified ctx ks verdict)
    (hsub : ∀ token nonce claims, verified token nonce claims → verified' token nonce claims) :
    Consulted verified' ctx ks verdict := by
  cases h with
  | unclaimed h => exact .unclaimed h
  | identified hbefore h => exact .identified hbefore (h.mono hsub)

theorem Consulted.declined {ks : List (SharedMechanism U S Y)}
    (h : Consulted verified ctx ks .notApplicable) : ∀ k ∈ ks, Declined ctx k := by
  cases h with
  | unclaimed h => exact h

theorem Consulted.cons {k : SharedMechanism U S Y} {ks : List (SharedMechanism U S Y)}
    (hk : Declined ctx k) (h : Consulted verified ctx ks verdict) :
    Consulted verified ctx (k :: ks) verdict := by
  cases h with
  | unclaimed h => exact .unclaimed (List.forall_mem_cons.mpr ⟨hk, h⟩)
  | identified hbefore h => exact .identified (List.forall_mem_cons.mpr ⟨hk, hbefore⟩) h

/-- **The chain, from its mechanisms.** Induction on the mechanisms; each has its own part of the
calls. -/
theorem consulted {ks : List (SharedMechanism U S Y)}
    (h : Prog.Returns (AuthChain.consult ctx (ks.map g.authenticator)).run tr (.ok verdict)) :
    Consulted (Answered tr) ctx ks verdict := by
  induction ks generalizing tr with
  | nil =>
    obtain ⟨rfl, hverdict⟩ := Prog.returns_ret_iff.mp h
    cases hverdict
    exact .unclaimed (by simp)
  | cons k ks ih =>
    rw [List.map_cons, AuthChain.consult_cons] at h
    obtain ⟨tr₁, first, tr₂, rfl, hfirst, hrest⟩ := Prog.returns_ok_bind h
    have hk := accounts k hfirst
    cases first with
    | notApplicable =>
      have htail : Consulted (Answered (tr₁ ++ tr₂)) ctx ks verdict :=
        (ih hrest).mono fun _ _ _ hmem => List.mem_append_right tr₁ hmem
      exact .cons hk htail
    | authenticated user =>
      obtain ⟨rfl, hverdict⟩ := Prog.returns_ret_iff.mp hrest
      cases hverdict
      rw [List.append_nil]
      have hnobody : ∀ k' ∈ ([] : List (SharedMechanism U S Y)), Declined ctx k' := by simp
      exact .identified hnobody hk

/-- Whom the gateway identifies, one of its mechanisms has. -/
theorem identified_of_authenticate {request : AuthRequest} {user : U}
    (h : Prog.Returns (g.gateway.authenticate request).run tr (.ok (some user))) :
    Consulted (Answered tr) (g.context request) g.mechanisms (.authenticated user) := by
  rw [AuthGateway.run_authenticate] at h
  split at h
  · cases (Prog.returns_ret_iff.mp h).2
  · obtain ⟨tr₁, answer, tr₂, rfl, hconsult, hret⟩ := Prog.returns_bind_iff.mp h
    obtain ⟨rfl, hanswer⟩ := Prog.returns_ret_iff.mp hret
    rw [List.append_nil]
    cases answer with
    | error e => cases hanswer
    | ok verdict =>
      cases verdict with
      | authenticated user' =>
        cases hanswer
        exact consulted hconsult
      | notApplicable =>
        have hconclude : Except.ok (some user) = if AuthScope.isPublic (g.scopes request) = true
          then .ok none else .error (AuthGateway.unclaimed (Credential.fromRequest request)
            (g.scopes request)) := hanswer
        split at hconclude <;> cases hconclude

/-- Whom it lets pass as nobody has asked for a public scope, and no mechanism took the request. -/
theorem passed_of_authenticate {request : AuthRequest}
    (h : Prog.Returns (g.gateway.authenticate request).run tr (.ok none)) :
    AuthScope.isPublic (g.scopes request) = true
      ∧ (g.publicScopePolicy.skips (Credential.fromRequest request) = true
        ∨ ∀ k ∈ g.mechanisms, Declined (g.context request) k) := by
  rw [AuthGateway.run_authenticate] at h
  split at h
  next hskip =>
    rw [Bool.and_eq_true] at hskip
    exact ⟨hskip.1, .inl hskip.2⟩
  next =>
    obtain ⟨tr₁, answer, tr₂, rfl, hconsult, hret⟩ := Prog.returns_bind_iff.mp h
    obtain ⟨rfl, hanswer⟩ := Prog.returns_ret_iff.mp hret
    cases answer with
    | error e => cases hanswer
    | ok verdict =>
      cases verdict with
      | authenticated user => cases hanswer
      | notApplicable =>
        have hconclude : (Except.ok none : Except AuthError (Option U))
          = if AuthScope.isPublic (g.scopes request) = true then .ok none
            else .error (AuthGateway.unclaimed (Credential.fromRequest request) (g.scopes request)) :=
          hanswer
        split at hconclude
        next hpublic => exact ⟨hpublic, .inr (consulted hconsult).declined⟩
        next => cases hconclude

end Mechanisms

/-! ## What the provider did

A verification that was called for is a call of the provider's own run, so what its runs are known to
do has been done for the request. -/

/-- The claims were verified for request `i`, in a call that verifies this token under this nonce
check, with keys the issuer had published. -/
def Verified (tr : List (Σ op : ProviderOp, op.Answer)) (s : Run U H R Y) (i : ℕ) (token : String)
    (nonce : NonceCheck) (claims : IdentityClaims) : Prop :=
  ∃ ev ∈ s.view.history, ev.task = i ∧ ∃ n idToken metadata verified,
    g.provider.lib.parseIdToken token = .ok idToken
    ∧ g.provider.Fetched tr s.view.service.history metadata
    ∧ ev.Did (.inner n (.verifyIdToken token nonce) (.idTokenClaims idToken
        (g.provider.clientOf metadata) (nonce.verifier g.provider.lib))) (.ok verified)
    ∧ claims = identityFromIdTokenClaims verified

/-- **The issuer is behind everyone**: whoever else uses the provider, and however the requests
interleave. -/
structure BehindIssuer (tr : List (Σ op : ProviderOp, op.Answer)) (s : Run U H R Y) : Prop where
  /-- Nobody but the issuer is asked for discovery, for whichever request. -/
  asked : (∀ x ∈ tr, g.provider.AsksIssuer x.1) ∧ ∀ ev ∈ s.view.history, ∀ n call op a,
    ev.Did (.inner n call op) a → g.provider.AsksIssuer op
  /-- A snapshot that is looked at is made of one answer the issuer had given by then. -/
  snapshot : ∀ ev past, Happened s.view.history ev past → ∀ state : ProviderState,
    ev.Did (.own .snapshot) state →
      ∃ metadata, g.provider.Fetched tr (past.filterMap Event.service) metadata
        ∧ state.metadata = metadata ∧ state.client = g.provider.clientOf metadata
  identified : ∀ i request user, s.Returned i (.authenticate request) (.inl (.ok (some user))) →
    Consulted (g.Verified tr s i) (g.context request) g.mechanisms (.authenticated user)
  passed : ∀ i request, s.Returned i (.authenticate request) (.inl (.ok none)) →
    AuthScope.isPublic (g.scopes request) = true
      ∧ (g.publicScopePolicy.skips (Credential.fromRequest request) = true
        ∨ ∀ k ∈ g.mechanisms, Declined (g.context request) k)
  /-- What else the host does, it does with claims that were verified, too. -/
  elsewhere : ∀ i h r, s.Returned i (.elsewhere h) (.inr r) →
    ∃ trace, Prog.Returns (g.elsewhere h) trace r
      ∧ ∀ token nonce claims, Answered trace token nonce claims → g.Verified tr s i token nonce claims

section Runs

variable {g} {tr : List (Σ op : ProviderOp, op.Answer)} {s : Run U H R Y} {t : ProviderRun}
  {owner : ℕ → ℕ} {i : ℕ}

/-- Claims that a call has returned were verified in it. -/
theorem verified_of_accounted (ht : Reachable (g.provider.startedBy tr) t)
    (h : Attends (g.host (g.provider.startedBy tr)) owner s t) {trace : Trace Y}
    (hacc : Accounted owner s t i trace) {token : String} {nonce : NonceCheck}
    {claims : IdentityClaims} (hmem : Answered trace token nonce claims) :
    g.Verified tr s i token nonce claims := by
  obtain ⟨n, hret, hi⟩ := hacc.2 _ _ hmem
  obtain ⟨e, he, hn, idToken, metadata, verified, hparse, hfetched, hdid, hclaims⟩ :=
    ProviderService.verified_of_returned ht hret
  have hreq : e.req = .verifyIdToken token nonce :=
    (ht.submitted e he).unique (hn ▸ hret.submitted)
  obtain ⟨ev, hev, htask, hinner⟩ := h.performed he
  rw [h.view] at hfetched
  refine ⟨ev, hev, by rw [htask, hn, hi], e.task, idToken, metadata, verified, hparse, hfetched, ?_,
    hclaims⟩
  obtain ⟨task, req, op, a, pre, post⟩ := e
  cases hdid
  cases hreq
  exact hinner

/-- The program of a request that has been answered, and what stands behind its calls. -/
theorem returned_authenticate (h : Attends (g.host (g.provider.startedBy tr)) owner s t)
    {request : AuthRequest} {answer : Except AuthError (Option U)}
    (hret : s.Returned i (.authenticate request) (.inl answer)) :
    ∃ trace, Prog.Returns (g.gateway.authenticate request).run trace answer
      ∧ Accounted owner s t i trace := by
  obtain ⟨trace, hreturns, hacc⟩ := h.returned hret
  obtain ⟨trace, answer', tr₂, rfl, hanswer, hlast⟩ := Prog.returns_bind_iff.mp hreturns
  obtain ⟨rfl, hinl⟩ := Prog.returns_ret_iff.mp hlast
  cases hinl
  rw [List.append_nil] at hacc
  exact ⟨trace, hanswer, hacc⟩

end Runs

/-! ## One request at a time at the issuer's

Requests cost the issuer nothing but what a single provider costs it: however many there are, and
whatever tokens they carry, discovery is started once an interval, by one of them. -/

def StartsDiscovery (ev : HostEvent (X := X) H Y) : Prop :=
  ∃ n call issuer, ev.Did (.inner n call (.discoverStart issuer)) ()

structure Sheltered (s : Run U H R Y) : Prop where
  spaced : ∀ ev past, Happened s.view.history ev past → StartsDiscovery ev →
    ∀ ev' ∈ past, StartsDiscovery ev' →
      ev'.post.service.now.nanos + g.provider.config.minRefreshInterval.nanos
        ≤ ev.pre.service.now.nanos
  one_in_flight : s.view.world.service.inFlight.length ≤ 1

variable {g} in
/-- **The issuer is sheltered** from the requests, where fetches that fail or are given up last the
interval. -/
theorem discovery_sheltered {s : Run U H R Y}
    (hs : Reachable (g.machine (g.provider.lingering g.provider.config.minRefreshInterval.nanos)) s) :
    g.Sheltered s := by
  obtain ⟨owner, t, ht, h⟩ := hs.attended
  have hinv : g.provider.Inv g.provider.config.minRefreshInterval.nanos t.view :=
    (ht.holds (ProviderService.valid (Nat.le_refl _))).inv
  rw [h.view] at hinv
  constructor
  case spaced =>
    intro ev past hev hstart ev' hmem hstart'
    obtain ⟨n, call, issuer, hdid⟩ := hstart
    obtain ⟨n', call', issuer', hdid'⟩ := hstart'
    obtain ⟨past', hev'⟩ := happened_of_mem (hev.past_mem hmem)
    -- both are events of the provider's run, in this order
    have hlater := View.happened_service hev hdid
    obtain ⟨earlier, hearlier⟩ := happened_of_mem hmem
    have hbefore := (View.happened_service (v := ⟨ev.pre, past⟩) hearlier hdid').mem
    exact hinv.spaced _ _ hlater ⟨issuer, rfl⟩ _ hbefore ⟨issuer', rfl⟩
  case one_in_flight => exact hinv.one_in_flight

/-! ## Requests on their own

Where the provider can verify a token on its own, a request with this token can be answered on its
own, whichever of the mechanisms takes it. -/

section Alone

variable {g} {M : Machine ProviderCall ProviderOp ProviderOp.Answer ProviderWorld
  (Except AuthError (Option IdentityClaims))}

/-- What a request does that a mechanism decides by the computation `p`. -/
theorem body_of_resolves {request : AuthRequest} {p : ExceptT AuthError (HostProg Y) U}
    (hasked : (AuthScope.isPublic (g.scopes request)
      && g.publicScopePolicy.skips (Credential.fromRequest request)) = false)
    (h : AuthChain.consult (g.context request) (g.mechanisms.map g.authenticator)
      = .authenticated <$> p) :
    g.body (.authenticate request) = p.run >>= fun answer => .ret (.inl (answer.map some)) := by
  have hconsult : AuthChain.consult ⟨request, Credential.fromRequest request, g.gateway.scopes request⟩
      g.gateway.chain.authenticators = .authenticated <$> p := h
  have hnot : (AuthScope.isPublic (g.gateway.scopes request)
      && g.gateway.chain.publicScopePolicy.skips (Credential.fromRequest request)) = false := hasked
  show (g.gateway.authenticate request).run >>= _ = _
  rw [AuthGateway.run_authenticate, hnot, if_neg (by decide), hconsult, ExceptT.run_map,
    bind_assoc, bind_map_left]
  congr 1
  funext answer
  cases answer <;> rfl

/-- What a verification is worth: the claims it returned, as a principal. -/
def resolved (text : String) : Except AuthError (Option IdentityClaims) → Except AuthError U
  | .ok (some claims) => principalFrom text claims
  | .ok none => .error (.internal "no claims")
  | .error e => .error e

/-- A mechanism that verifies a token, as a program with one call. -/
theorem run_resolve (c : ProviderService) (text token : String) :
    ((do
        let claims ← (c.shared (Y := Y)).verifyIdToken token .present
        ExceptT.mk (pure (principalFrom text claims))) : ExceptT AuthError (HostProg Y) U).run
      = Prog.call (CallerOp.invoke (.verifyIdToken token .present)) fun answer =>
          .ret (resolved text answer) := by
  rw [ExceptT.run_bind]
  refine Prog.call_congr fun answer => ?_
  rcases answer with e | _ | claims <;> rfl

/-- **A request that is identified by a token**, alone: where the provider verifies the token, it is
answered with the principal of the claims. -/
theorem alone_identified {request : AuthRequest} {text token : String} {claims : IdentityClaims}
    (hasked : (AuthScope.isPublic (g.scopes request)
      && g.publicScopePolicy.skips (Credential.fromRequest request)) = false)
    (h : AuthChain.consult (g.context request) (g.mechanisms.map g.authenticator)
      = .authenticated <$> (do
        let claims ← g.provider.shared.verifyIdToken token .present
        ExceptT.mk (pure (principalFrom text claims))))
    {u : View (HostCall H) (Op X) (InlinedOp.Answer ProviderOp.Answer (HostOp.Answer Y))
      (CallWorld ProviderWorld Unit)} {v : ProviderView}
    (hverify : Alone M u.world.next (.verifyIdToken token .present) u.service
      (M.body (.verifyIdToken token .present)) v (.ret (.ok (some claims)))) (i : ℕ) :
    ∃ u', u'.service = v ∧ u'.world.next = u.world.next + 1
      ∧ Alone (g.machine M) i (.authenticate request) u ((g.machine M).body (.authenticate request))
        u' (.ret (.inl ((principalFrom text claims).map some))) := by
  obtain ⟨u', hservice, hnext, -, halone⟩ := hverify.invoke (C := g.host M) i (.authenticate request)
    (fun _ _ _ h => h) fun answer => .ret (.inl ((resolved text answer).map some))
  refine ⟨u', hservice, hnext, ?_⟩
  show Alone _ _ _ _ (inlined M.body (g.body (.authenticate request))) _ _
  rw [body_of_resolves hasked h, run_resolve]
  exact halone

end Alone

end OidcGateway

/-! ## A portal

Bearer tokens for its API and sessions for its pages, over one provider whose issuer has rotated its
keys since it was started. -/

namespace ProviderService

/-- What a verification does while the keys it finds are old: it fails, fetches new ones, and is
told these claims with them. -/
def rotatedTrace (token : String) (snapshot : Arc ProviderState) (now : Instant)
    (claims : IdTokenClaims) : List (Σ op : ProviderOp, op.Answer) :=
  let fresh : Arc ProviderState := ⟨snapshot.ptr + 1, lenientProvider.stateOf bareMetadata now⟩
  let check := NonceCheck.present.verifier lenientProvider.lib
  [⟨.read, snapshot⟩, ⟨.idTokenClaims ⟨token⟩ snapshot.value.client check, .error noMatchingKey⟩,
    ⟨.read, snapshot⟩, ⟨.instantNow, now⟩, ⟨.lock, ()⟩, ⟨.read, snapshot⟩, ⟨.instantNow, now⟩,
    ⟨.discoverStart "https://issuer", ()⟩, ⟨.discoverAwait "https://issuer", .ok bareMetadata⟩,
    ⟨.instantNow, now⟩, ⟨.write fresh.value, ()⟩, ⟨.unlock, ()⟩, ⟨.read, fresh⟩,
    ⟨.idTokenClaims ⟨token⟩ fresh.value.client check, .ok claims⟩]

/-- A verification that finds old keys: this trace is one of its behaviours. -/
theorem returns_rotated {token : String} {snapshot : Arc ProviderState} {now : Instant}
    (hold : ¬ lenientProvider.Fresh snapshot.value now) (claims : IdTokenClaims) :
    Prog.Returns (lenientProvider.body (.verifyIdToken token .present))
      (rotatedTrace token snapshot now claims) (.ok (some (identityFromIdTokenClaims claims))) := by
  have hrefresh : Prog.Returns lenientProvider.refresh
      [⟨.read, snapshot⟩, ⟨.instantNow, now⟩, ⟨.lock, ()⟩, ⟨.read, snapshot⟩, ⟨.instantNow, now⟩,
        ⟨.discoverStart "https://issuer", ()⟩, ⟨.discoverAwait "https://issuer", .ok bareMetadata⟩,
        ⟨.instantNow, now⟩, ⟨.write (lenientProvider.stateOf bareMetadata now), ()⟩, ⟨.unlock, ()⟩]
      (.ok ()) := by
    unfold refresh
    refine .call (.call ?_)
    rw [if_neg hold]
    refine .call ?_
    unfold locked
    refine .call ?_
    rw [if_neg (by simp)]
    refine .call ?_
    rw [if_neg hold]
    exact .call (.call (.call (.call (.call (.ret _)))))
  rw [body_eq]
  exact .call (.call (Prog.returns_bind_iff.mpr ⟨_, _, _, rfl, hrefresh, .call (.call (.ret _))⟩))

/-- **Alone, after the issuer has rotated its keys**: a verification asks for the new ones and
succeeds with these. -/
theorem alone_rotated (gap n : ℕ) (token : String) {snapshot : Arc ProviderState} {now : Instant}
    (history : List ProviderEvent) (hold : ¬ lenientProvider.Fresh snapshot.value now)
    (claims : IdTokenClaims) :
    ∃ v, Alone (lenientProvider.lingering gap) n (.verifyIdToken token .present)
        ⟨⟨snapshot, none, [], now⟩, history⟩ (lenientProvider.body (.verifyIdToken token .present)) v
        (.ret (.ok (some (identityFromIdTokenClaims claims))))
      ∧ v.world = ⟨⟨snapshot.ptr + 1, lenientProvider.stateOf bareMetadata now⟩, none, [], now⟩
      ∧ ∃ own, v.history = own ++ history ∧ ∃ start ∈ own, Starts start := by
  -- nothing fails late, as no fetch fails
  have hplain : ∀ v op a w, (∀ issuer e, (⟨op, a⟩ : Σ op : ProviderOp, op.Answer)
      ≠ ⟨.discoverAwait issuer, .error e⟩) → FailsLate gap n v op a w :=
    fun v op a w hnot issuer e heq => absurd heq (hnot issuer e)
  let before : ProviderWorld := ⟨snapshot, none, [], now⟩
  let locked : ProviderWorld := ⟨snapshot, some n, [], now⟩
  let asked : ProviderWorld := ⟨snapshot, some n, [n], now⟩
  let fresh : Arc ProviderState := ⟨snapshot.ptr + 1, lenientProvider.stateOf bareMetadata now⟩
  let stored : ProviderWorld := ⟨fresh, some n, [], now⟩
  let after : ProviderWorld := ⟨fresh, none, [], now⟩
  have hplays : ∃ v, Plays (lenientProvider.lingering gap) n (.verifyIdToken token .present)
        ⟨before, history⟩ (rotatedTrace token snapshot now claims) v
      ∧ v.world = after ∧ ∃ own, v.history = own ++ history ∧ ∃ start ∈ own, Starts start := by
    refine ⟨_, .cons before ⟨⟨rfl, rfl⟩, hplain _ _ _ _ (by simp)⟩
      (.cons before ⟨rfl, hplain _ _ _ _ (by simp)⟩
      (.cons before ⟨⟨rfl, rfl⟩, hplain _ _ _ _ (by simp)⟩
      (.cons before ⟨⟨rfl, rfl⟩, hplain _ _ _ _ (by simp)⟩
      (.cons locked ⟨⟨rfl, rfl⟩, hplain _ _ _ _ (by simp)⟩
      (.cons locked ⟨⟨rfl, rfl⟩, hplain _ _ _ _ (by simp)⟩
      (.cons locked ⟨⟨rfl, rfl⟩, hplain _ _ _ _ (by simp)⟩
      (.cons asked ⟨rfl, hplain _ _ _ _ (by simp)⟩
      (.cons locked ⟨?_, hplain _ _ _ _ (by simp)⟩
      (.cons locked ⟨⟨rfl, rfl⟩, hplain _ _ _ _ (by simp)⟩
      (.cons stored ⟨rfl, hplain _ _ _ _ (by simp)⟩
      (.cons after ⟨rfl, hplain _ _ _ _ (by simp)⟩
      (.cons after ⟨⟨rfl, rfl⟩, hplain _ _ _ _ (by simp)⟩
      (.cons after ⟨rfl, hplain _ _ _ _ (by simp)⟩ (.nil _)))))))))))))), rfl, ?_⟩
    · exact congrArg (ProviderWorld.mk snapshot (some n) · now) (List.erase_cons_head ..).symm
    · -- the seventh operation from the end is the request
      exact ⟨[_, _, _, _, _, _, _, _, _, _, _, _, _, _], rfl, _,
        .tail _ (.tail _ (.tail _ (.tail _ (.tail _ (.tail _ (.head _)))))), _, rfl⟩
  obtain ⟨v, hv, hworld, hstart⟩ := hplays
  exact ⟨v, hv.alone (returns_rotated hold claims), hworld, hstart⟩

end ProviderService

namespace OidcGateway

open ProviderService

/-- Bearer tokens are looked for first, then sessions, which are not redirected into a login. Besides
answering requests the host refreshes the provider. -/
def portal : OidcGateway User NoScope Unit (Except AuthError (Option IdentityClaims))
    (fun x : Empty => x.elim) where
  provider := lenientProvider
  mechanisms := [.bearer, .session idTokenCodec none]
  scopes _ := .noScope
  publicScopePolicy := .optional
  elsewhere _ := HostProg.call .refresh

def adaClaims : IdTokenClaims :=
  { claimsNaming "ada" with email := some "ada@example.com" }

def ada : User := ⟨"ada@example.com", "ada@example.com"⟩

example : (principalFrom "bearer identity conversion" (identityFromIdTokenClaims adaClaims) :
    Except AuthError User) = .ok ada := rfl

/-- A call to the API, and a page. -/
def tokenRequest : AuthRequest :=
  (({} : AuthRequestBuilder).header "authorization" "Bearer a.b.c").build

def sessionRequest : AuthRequest := (({} : AuthRequestBuilder).cookie "session" "d.e.f").build

/-- The portal consults its mechanisms about every request, as its scope is not public. -/
theorem portal_asks (request : AuthRequest) : (AuthScope.isPublic (portal.scopes request)
    && portal.publicScopePolicy.skips (Credential.fromRequest request)) = false := rfl

/-- The bearer mechanism takes the call to the API, and verifies its token. -/
theorem consult_tokenRequest :
    AuthChain.consult (portal.context tokenRequest) (portal.mechanisms.map portal.authenticator)
      = .authenticated <$> (do
        let claims ← portal.provider.shared.verifyIdToken "a.b.c" .present
        ExceptT.mk (pure (principalFrom "bearer identity conversion" claims))) := by
  have hcredential : (portal.context tokenRequest).credential = .bearer "a.b.c" := by decide +kernel
  exact AuthChain.consult_cons_of_resolves
    (BearerAuthenticator.authenticate_of_isCompactJws hcredential (by decide)) _

/-- The bearer mechanism has nothing to look at, and the session mechanism verifies the cookie. -/
theorem consult_sessionRequest :
    AuthChain.consult (portal.context sessionRequest) (portal.mechanisms.map portal.authenticator)
      = .authenticated <$> (do
        let claims ← portal.provider.shared.verifyIdToken "d.e.f" .present
        ExceptT.mk (pure (principalFrom "session identity conversion" claims))) := by
  have hcredential : (portal.context sessionRequest).credential = .none := by decide +kernel
  have hcookie : (portal.context sessionRequest).request.cookie
      (AuthScope.sessionCookieName (portal.context sessionRequest).scope) = some "d.e.f" := by
    decide +kernel
  have hnot : ¬ BearerAuthenticator.Claims (portal.context sessionRequest).credential := by
    rw [hcredential]
    exact id
  have hdeclines : AuthChain.DeclinesPurely (portal.context sessionRequest)
      (portal.authenticator .bearer) := by
    unfold AuthChain.DeclinesPurely
    exact BearerAuthenticator.authenticate_of_not_claims (a := ⟨portal.provider.shared⟩) hnot
  have hresolves : (portal.authenticator (.session idTokenCodec none)).authenticate
      (portal.context sessionRequest) = .authenticated <$> (do
        let claims ← portal.provider.shared.verifyIdToken "d.e.f" .present
        ExceptT.mk (pure (principalFrom "session identity conversion" claims))) :=
    SessionAuthenticator.authenticate_of_cookie
      (a := ⟨portal.provider.shared, idTokenCodec, none⟩) rfl hcookie
  show AuthChain.consult _ (portal.authenticator .bearer :: _) = _
  rw [AuthChain.consult_cons_of_declines hdeclines]
  exact AuthChain.consult_cons_of_resolves hresolves _

def portalWorld (snapshot : Arc ProviderState) (now : Instant) : CallWorld ProviderWorld Unit :=
  ⟨⟨snapshot, none, [], now⟩, 0, ()⟩

/-- A request that went out to the issuer in a call went out for the caller. -/
theorem startsDiscovery_of_own {u u' : View (HostCall H) (Op X)
      (InlinedOp.Answer ProviderOp.Answer (HostOp.Answer Y)) (CallWorld ProviderWorld Unit)}
    {later : List (HostEvent H Y)} (hlater : u'.history = later ++ u.history)
    {own : List ProviderEvent} (hown : u'.service.history = own ++ u.service.history)
    (hstart : ∃ start ∈ own, Starts start) : ∃ ev ∈ later, StartsDiscovery ev := by
  obtain ⟨start, hmem, issuer, hdid⟩ := hstart
  have hsame : later.filterMap Event.service = own := by
    have happend : u'.service.history = later.filterMap Event.service ++ u.service.history := by
      show u'.history.filterMap Event.service = _
      rw [hlater, List.filterMap_append]
      rfl
    exact List.append_cancel_right (happend.symm.trans hown)
  rw [← hsame] at hmem
  obtain ⟨ev, hev, hinner, -, -⟩ := View.mem_service (v := ⟨u.world, later⟩) hmem
  obtain ⟨task, req, op, a, pre, post⟩ := start
  cases hdid
  exact ⟨ev, hev, task, req, issuer, hinner⟩

/-- **Two requests with tokens of unknown keys**, a hundred seconds apart: for each of them the
issuer is asked. -/
theorem portal_sheltered : ∃ s : Run User Unit (Except AuthError (Option IdentityClaims))
      (fun x : Empty => x.elim),
    (∃ ev past, Happened s.view.history ev past ∧ StartsDiscovery ev
      ∧ ∃ ev' ∈ past, StartsDiscovery ev') ∧ portal.Sheltered s := by
  let M := portal.provider.lingering portal.provider.config.minRefreshInterval.nanos
  let world := portalWorld bareSnapshot (second 100)
  let fresh : Arc ProviderState := ⟨1, portal.provider.stateOf bareMetadata (second 100)⟩
  have h₀ : Reachable (portal.machine M) ⟨⟨world, []⟩, fun _ => .idle⟩ :=
    .init world ⟨⟨by decide, rfl, rfl⟩, trivial, rfl⟩
  have hold₁ : ¬ portal.provider.Fresh bareSnapshot.value (second 100) := by decide
  have hold₂ : ¬ portal.provider.Fresh fresh.value (second 200) := by decide
  obtain ⟨v₁, hrotated₁, hworld₁, own₁, hown₁, hstarts₁⟩ := alone_rotated
    portal.provider.config.minRefreshInterval.nanos 0 "a.b.c" [] hold₁ adaClaims
  obtain ⟨u₁, hservice₁, hnext₁, hlone₁⟩ := alone_identified (M := M) (u := ⟨world, []⟩)
    (portal_asks tokenRequest) consult_tokenRequest hrotated₁ 0
  obtain ⟨later₁, hlater₁⟩ := hlone₁.history
  obtain ⟨ev₁, hev₁, hstart₁⟩ := startsDiscovery_of_own hlater₁ (hservice₁ ▸ hown₁) hstarts₁
  obtain ⟨s₁, hs₁, hview₁, -, hidle₁⟩ := h₀.submit rfl hlone₁
  -- time passes
  let world₂ : CallWorld ProviderWorld Unit := ⟨⟨fresh, none, [], second 200⟩, 1, ()⟩
  have hstep : Reachable (portal.machine M) ⟨s₁.view.withWorld world₂, s₁.tasks⟩ := by
    refine hs₁.step (.env world₂ ⟨⟨?_, trivial⟩, ?_⟩)
    · show ProviderWorld.elapse s₁.view.service.world world₂.service
      rw [hview₁, hservice₁, hworld₁]
      exact ⟨by decide, rfl⟩
    · rw [hview₁, hnext₁]
      rfl
  obtain ⟨v₂, hrotated₂, -, own₂, hown₂, hstarts₂⟩ := alone_rotated
    portal.provider.config.minRefreshInterval.nanos 1 "a.b.c" v₁.history hold₂ adaClaims
  have hservice₂ : (s₁.view.withWorld world₂).service
      = ⟨⟨fresh, none, [], second 200⟩, v₁.history⟩ := by
    rw [hview₁, ← hservice₁]
    rfl
  obtain ⟨u₂, hservice₂', -, hlone₂⟩ := alone_identified (M := M) (u := s₁.view.withWorld world₂)
    (portal_asks tokenRequest) consult_tokenRequest (hservice₂ ▸ hrotated₂) 1
  obtain ⟨later₂, hlater₂⟩ := hlone₂.history
  obtain ⟨ev₂, hev₂, hstart₂⟩ := startsDiscovery_of_own hlater₂
    (by rw [hservice₂', hservice₂]; exact hown₂) hstarts₂
  obtain ⟨s₂, hs₂, hview₂, -, -⟩ := hstep.submit (hidle₁ 1 (by decide)) hlone₂
  refine ⟨s₂, ?_, discovery_sheltered hs₂⟩
  obtain ⟨after, before, hsplit⟩ := List.append_of_mem hev₂
  refine ⟨ev₂, before ++ s₁.view.history, ⟨after, ?_⟩, hstart₂, ev₁, ?_, hstart₁⟩
  · rw [hview₂, hlater₂, hsplit]
    simp
  · refine List.mem_append_right _ ?_
    rw [hview₁, hlater₁]
    exact List.mem_append_left _ hev₁

end OidcGateway

end AuthnKit
