import AuthnKit.Adapters.GatewayRuns
import AuthnKit.Mechanisms.NeverCrossed

/-!
# AuthnKit — a gateway with both caches

API tokens and Basic credentials behind one gateway, among any other mechanisms and in any order.
Each of the two keeps a cache of its own.

* **`Identified`** — what stands behind a principal.
* **`principals_stay_with_credentials`** — whoever the service sees is who the credential of this
  very request stands for, whatever the other requests presented.
-/

namespace AuthnKit

open Interleave

variable {U S E B F κ : Type}

inductive Slot (κ : Type) where
  | token
  | basic
  | other (x : κ)
  deriving DecidableEq

structure Installation (U S E κ : Type) where
  token : ApiTokenService
  basic : BasicService
  others : κ → Registration U S
  order : List (Slot κ)
  nodup : order.Nodup
  scopes : AuthRequest → S
  publicScopePolicy : PublicScopePolicy
  cookieParser : Actix.CookieParser
  extensions : Option (U → Extensions U E → Extensions U E)

/-- Why the token authenticator accepts a request: its key is on the list, or the validator knew a
key of the same digest on this scope. -/
theorem ApiTokenService.accepted_of_returned [Principal U] [AuthScope S] {c : ApiTokenService}
    {s : ServiceState U S} (hs : Reachable c.machine s) {i : ℕ} {r : AuthContext S} {user : U}
    (h : s.Returned i r (.ok (.authenticated user))) :
    ∃ key, c.keyOf r.credential = some key
      ∧ ((∃ token, c.matched (AuthScope.cacheDiscriminator r.scope) key = some token
          ∧ Principal.tryFrom token.claims = .ok user)
        ∨ c.matched (AuthScope.cacheDiscriminator r.scope) key = none) := by
  have hret : Prog.Returns (c.body r) (s.view.trace i) (.ok (.authenticated user)) := hs.returns h
  rw [c.body_eq] at hret
  cases hkey : c.keyOf r.credential with
  | none =>
    rw [hkey] at hret
    cases (Prog.returns_ret_iff.mp hret).2
  | some key =>
    refine ⟨key, rfl, ?_⟩
    cases hmatched : c.matched (AuthScope.cacheDiscriminator r.scope) key with
    | none => exact .inr rfl
    | some token =>
      simp only [hkey, hmatched] at hret
      obtain ⟨-, hconv⟩ := Prog.returns_ret_iff.mp hret
      refine .inl ⟨token, rfl, ?_⟩
      cases hfrom : (principalFrom "static token principal could not be converted" token.claims
          : Except AuthError U) with
      | error e =>
        rw [hfrom] at hconv
        cases hconv
      | ok user' =>
        rw [hfrom] at hconv
        cases hconv
        exact principalFrom_eq_ok.mp hfrom

namespace Installation

variable [Principal U] [AuthScope S] (d : Installation U S E κ)

def mechanisms : Slot κ → Registration U S
  | .token =>
    ⟨(d.token.authenticator.authenticator (S := S) (MechProg.platform (U := U) d.token.blake3)).name,
      ⟨MechOp U, MechOp.Answer, CacheWorld U, d.token.machine⟩⟩
  | .basic =>
    ⟨(d.basic.authenticator.authenticator (S := S) (U := U) d.basic.blake3).name,
      ⟨MechOp U, MechOp.Answer, CacheWorld U, d.basic.machine⟩⟩
  | .other x => d.others x

def application : Application U S E (Slot κ) where
  mechanisms := d.mechanisms
  order := d.order
  nodup := d.nodup
  scopes := d.scopes
  publicScopePolicy := d.publicScopePolicy
  cookieParser := d.cookieParser
  extensions := d.extensions

variable {d} [DecidableEq κ] {s : d.application.Run B F} {i : ℕ} {r : ServiceRequest U E}

def PresentedKey (s : d.application.Run B F) (key : String) : Prop :=
  ∃ i r, s.Submitted i r ∧ d.token.keyOf (d.application.context r).credential = some key

def PresentedSecret (s : d.application.Run B F) (secret : String) : Prop :=
  ∃ i r id, s.Submitted i r ∧ (d.application.context r).credential = .basic id secret

/-- Where the principal of a request comes from. -/
inductive Identified (s : d.application.Run B F) (i : ℕ) (r : ServiceRequest U E) : U → Prop where
  /-- The key is on the list. -/
  | listed {key : String} {token : StaticToken} {user : U}
      (hkey : d.token.keyOf (d.application.context r).credential = some key)
      (hmatched : d.token.matched (AuthScope.cacheDiscriminator (d.application.context r).scope) key
        = some token)
      (hconv : Principal.tryFrom token.claims = .ok user) : Identified s i r user
  /-- The validator spoke for this very key, on this scope. -/
  | validated {key : String} {claims : IdentityClaims} {user : U}
      (hkey : d.token.keyOf (d.application.context r).credential = some key)
      (hmatched : d.token.matched (AuthScope.cacheDiscriminator (d.application.context r).scope) key
        = none)
      (hvalidation : ∃ ev ∈ s.view.history, ev.Did (.part .token
        (.validate key (AuthScope.cacheDiscriminator (d.application.context r).scope))) (.ok claims))
      (hconv : Principal.tryFrom claims = .ok user) : Identified s i r user
  /-- The issuer spoke for this very pair, on this scope. -/
  | exchanged {id secret : String} {kind : GrantKind} {user : U}
      {exchange : CacheEvent (AuthContext S) U} {request : TokenRequest} {response : TokenResponse}
      (hcred : (d.application.context r).credential = .basic id secret)
      (hselect : d.basic.selectGrant (d.application.context r).request = .ok kind)
      (hminted : BasicService.Minted (s.view.part .basic d.application.context).history
        (AuthScope.cacheDiscriminator (d.application.context r).scope) kind id secret user exchange
        request response) : Identified s i r user
  /-- Another mechanism spoke. -/
  | other {x : κ} {user : U}
      (h : Application.Came s i r (.other x) (.ok (.authenticated user))) : Identified s i r user

omit [DecidableEq κ] in
/-- A key that a mechanism's run presents was presented to the gateway. -/
theorem presentedKey_of {t : ServiceState U S}
    (h : ∀ j ctx, t.Submitted j ctx → ∃ r', s.Submitted j r' ∧ d.application.context r' = ctx)
    {key : String} (hkey : d.token.Presented t key) : PresentedKey s key := by
  obtain ⟨j, ctx, hj, hkey⟩ := hkey
  obtain ⟨r', hr', rfl⟩ := h j ctx hj
  exact ⟨j, r', hr', hkey⟩

omit [DecidableEq κ] in
theorem presentedSecret_of {t : ServiceState U S}
    (h : ∀ j ctx, t.Submitted j ctx → ∃ r', s.Submitted j r' ∧ d.application.context r' = ctx)
    {secret : String} (hsecret : BasicService.Presented t secret) : PresentedSecret s secret := by
  obtain ⟨j, ctx, id, hj, hcred⟩ := hsecret
  obtain ⟨r', hr', rfl⟩ := h j ctx hj
  exact ⟨j, r', id, hr', hcred⟩

/-- Whom the token authenticator identifies, the key of the request identifies. -/
theorem identified_of_token (hcol : NoCollision d.token.blake3 (PresentedKey s)) {user : U}
    (h : Application.Came s i r Slot.token (.ok (.authenticated user))) : Identified s i r user := by
  obtain ⟨t, ht, hreturned, hevents, hsubmitted⟩ := h
  have ht : Reachable d.token.machine t := ht
  obtain ⟨key, hkey, ⟨token, hmatched, hconv⟩ | hmatched⟩ :=
    ApiTokenService.accepted_of_returned ht hreturned
  · exact .listed hkey hmatched hconv
  · have hcol' : NoCollision d.token.blake3 (d.token.Presented t) := fun a b ha hb =>
      hcol a b (presentedKey_of hsubmitted ha) (presentedKey_of hsubmitted hb)
    obtain ⟨ev, hev, claims, hdid, hconv⟩ :=
      (d.token.never_crossed ht hcol').answered i _ user key hreturned hkey hmatched
    obtain ⟨ev', hev', -, -, hdid'⟩ := View.mem_part (hevents ev hev)
    obtain ⟨task, req, op, ans, pre, post⟩ := ev
    cases hdid
    exact .validated hkey hmatched ⟨ev', hev', hdid'⟩ hconv

/-- Whom the Basic authenticator identifies, the pair of the request identifies. -/
theorem identified_of_basic (hcol : NoCollision d.basic.blake3 (PresentedSecret s)) {user : U}
    (h : Application.Came s i r Slot.basic (.ok (.authenticated user))) : Identified s i r user := by
  obtain ⟨t, ht, hreturned, hevents, hsubmitted⟩ := h
  have ht : Reachable d.basic.machine t := ht
  have hcol' : NoCollision d.basic.blake3 (BasicService.Presented t) := fun a b ha hb =>
    hcol a b (presentedSecret_of hsubmitted ha) (presentedSecret_of hsubmitted hb)
  -- whom it accepts has presented a pair
  have hpost : d.basic.Post (d.application.context r) i t.view (.ok (.authenticated user)) :=
    ht.post (C := d.basic.spec.contract) d.basic.spec_valid hreturned
  obtain ⟨id, secret, kind, hcred, -⟩ := hpost
  obtain ⟨kind, hselect, exchange, request, response, hminted⟩ :=
    (d.basic.never_crossed ht hcol').answered i _ id secret user hreturned hcred
  exact .exchanged hcred hselect (hminted.mono hevents)

/-- Whoever of the mechanisms it was, the principal is the request's own. -/
theorem identified_of_came (hkeys : NoCollision d.token.blake3 (PresentedKey s))
    (hsecrets : NoCollision d.basic.blake3 (PresentedSecret s)) {k : Slot κ} {user : U}
    (h : Application.Came s i r k (.ok (.authenticated user))) : Identified s i r user := by
  cases k with
  | token => exact identified_of_token hkeys h
  | basic => exact identified_of_basic hsecrets h
  | other x => exact .other h

/-- **The principal of a request is its own**, in any run in which the hash functions do not collide
on what was presented, and whatever is registered beside the two authenticators. -/
theorem principals_stay_with_credentials (d : Installation U S E κ) (s : d.application.Run B F)
    (hs : Reachable d.application.machine s)
    (hkeys : NoCollision d.token.blake3 (PresentedKey s))
    (hsecrets : NoCollision d.basic.blake3 (PresentedSecret s)) :
    ∀ ev ∈ s.view.history, ∀ request a, ev.Did (.own request) a →
      (request = ev.req ∧ AuthScope.isPublic (d.application.context ev.req).scope = true)
        ∨ ∃ user, request = ActixAuthnMiddleware.identified d.extensions user ev.req
          ∧ Identified s ev.task ev.req user := by
  intro ev hev request a hdid
  have hpasses := (d.application.guarded_of_reachable hs).passed ev hev request a hdid
  cases hpasses with
  | identified _ _ h _ => exact .inr ⟨_, rfl, identified_of_came hkeys hsecrets h⟩
  | unclaimed _ hpublic _ => exact .inl ⟨rfl, hpublic⟩
  | skipped h => exact .inl ⟨rfl, (Bool.and_eq_true_iff.mp h).1⟩

end Installation

/-! ## Two requests

Introspected API tokens are registered first, and passwords among the others. One request presents the
key `abc`; the next presents the password `abc` of `ada`, which the token authenticator declines. -/

section Example

variable {others : κ → Registration User NoScope} {order : List (Slot κ)} {nodup : order.Nodup}

def abcInstallation (others : κ → Registration User NoScope) (order : List (Slot κ))
    (nodup : order.Nodup) : Installation User NoScope Unit κ where
  token := introspected (.fromSecs 300)
  basic := passwordLogin
  others := others
  order := order
  nodup := nodup
  scopes _ := .noScope
  publicScopePolicy := .optional
  cookieParser := Actix.parseEncoded
  extensions := none

/-- A request with the key `abc`. -/
def abcCall : ServiceRequest User Unit :=
  ⟨{ requestWith "" with headers := [("authorization", "Bearer sptok_abc")] }, ⟨none, ()⟩⟩

def abcUser : User := ⟨"ci@example.com", "ci@example.com"⟩

/-- A request with the password of `ada`. -/
def adaCall : ServiceRequest User Unit :=
  ⟨{ requestWith "" with
      headers := [("authorization", "Basic YWRhOmFiYw=="), ("x-grant-type", "password")] },
    ⟨none, ()⟩⟩

/-- What the mechanisms get to see, whatever is registered. -/
def abcContext (r : ServiceRequest User Unit) : AuthContext NoScope where
  request := Actix.request Actix.parseEncoded r.parts
  credential := Credential.fromRequest (Actix.request Actix.parseEncoded r.parts)
  scope := .noScope

/-- The first request presents the key. -/
theorem abcCall_key : (introspected (.fromSecs 300)).keyOf (abcContext abcCall).credential = some "abc" := by
  decide +kernel

/-- It does so as a bearer token with the prefix. -/
theorem abcCall_credential : (abcContext abcCall).credential = .bearer "sptok_abc" := by decide +kernel

theorem adaCall_credential : (abcContext adaCall).credential = .basic "ada" "abc" := by decide +kernel

theorem adaCall_selectGrant : passwordLogin.selectGrant (abcContext adaCall).request = .ok .password :=
  selectGrant_of_header (by decide +kernel)

/-- The service has answered the request, on behalf of `user`. -/
def ServedAs (s : (abcInstallation others order nodup).application.Run String Unit)
    (r : ServiceRequest User Unit) (user : User) : Prop :=
  ∃ ev ∈ s.view.history, ev.req = r
    ∧ ev.Did (.own (ActixAuthnMiddleware.identified none user r)) (.ok "hello")

theorem token_declines : (abcInstallation others order nodup).application.asked .token
    (abcContext adaCall) = .ret (.ok .notApplicable) := by
  show (introspected (.fromSecs 300)).body (abcContext adaCall) = _
  rw [ApiTokenService.body_eq, adaCall_credential]
  rfl

/-- **Both requests are served**, the second one as whoever comes after the token authenticator
says. -/
theorem exists_abc_run [DecidableEq κ] {k : Slot κ} {after : List (Slot κ)}
    (horder : order = .token :: k :: after)
    {start : Worlds (abcInstallation others order nodup).application.parts}
    (hstart : ((abcInstallation others order nodup).application.machine (B := String)
      (F := Unit)).init start)
    (htoken : start .token = abcStart) {user : User}
    (haccepts : ∃ v, Alone ((abcInstallation others order nodup).application.parts k).machine 1
      (abcContext adaCall) ⟨start k, []⟩
      ((abcInstallation others order nodup).application.asked k (abcContext adaCall)) v
      (.ret (.ok (.authenticated user)))) :
    ∃ s : (abcInstallation others order nodup).application.Run String Unit,
      Reachable (abcInstallation others order nodup).application.machine s
        ∧ ServedAs s abcCall abcUser ∧ ServedAs s adaCall user
        ∧ ∀ i r, s.Submitted i r → r = abcCall ∨ r = adaCall := by
  let app := (abcInstallation others order nodup).application
  have hk : k ≠ .token := by
    have hnodup := nodup
    rw [horder] at hnodup
    rintro rfl
    exact (List.nodup_cons.mp hnodup).1 List.mem_cons_self
  obtain ⟨v, haccepts⟩ := haccepts
  -- the key is introspected
  have hcached : (introspected (.fromSecs 300)).CachedUntil (abcContext abcCall) "abc"
      (abcClaims none) abcUser abcStart none (abcAfter 30) :=
    { introspected_cachedUntil (.fromSecs 300) none (by simp) with key_eq := abcCall_key }
  obtain ⟨w, hfirst, -⟩ := (introspected (.fromSecs 300)).exists_first (fun _ _ _ _ _ => True)
    (fun _ _ _ _ => True) (fun _ _ => True) hcached (fun _ _ _ _ _ _ => trivial)
  rw [← htoken] at hfirst
  have hfront : app.order = [] ++ .token :: k :: after := horder
  obtain ⟨V₁, hserved₁, hframe, ev₁, hev₁, -, hreq₁, hdid₁⟩ :=
    app.exists_served (i := 0) (V := ⟨start, []⟩) rfl hfront (by simp) hfirst.of_restrict
      (.ok "hello")
  obtain ⟨s₁, hs₁, hview₁, hrun₁, hidle₁⟩ := (Reachable.init start hstart).submit rfl hserved₁
  -- the password comes second, and finds its mechanism as it was
  have hview₂ : s₁.view.part k app.context = ⟨start k, []⟩ := by
    rw [hview₁, hframe k hk]
    rfl
  have hbehind : app.order = [.token] ++ k :: after := horder
  obtain ⟨V₂, hserved₂, -, ev₂, hev₂, -, hreq₂, hdid₂⟩ :=
    app.exists_served (i := 1) (V := s₁.view) (r := adaCall) rfl hbehind
      (fun j hj => List.mem_singleton.mp hj ▸ token_declines) (by rw [hview₂]; exact haccepts)
      (.ok "hello")
  have hidle : s₁.tasks 1 = .idle := hidle₁ 1 (by decide)
  obtain ⟨s₂, hs₂, hview₂', hrun₂, hidle₂⟩ := hs₁.submit hidle hserved₂
  obtain ⟨later, hlater⟩ := hserved₂.history
  refine ⟨s₂, hs₂, ⟨ev₁, ?_, hreq₁, hdid₁⟩, ⟨ev₂, by rwa [hview₂'], hreq₂, hdid₂⟩, ?_⟩
  · rw [hview₂', hlater, hview₁]
    exact List.mem_append_right _ hev₁
  · intro i r hsub
    by_cases h1 : i = 1
    · subst h1
      exact .inr (hsub.unique (.inl ⟨_, hrun₂⟩))
    · by_cases h0 : i = 0
      · subst h0
        exact .inl (hsub.unique (.inl ⟨_, (hidle₂ 0 h1).trans hrun₁⟩))
      · exact absurd ((hidle₂ i h1).trans (hidle₁ i h0)) hsub.not_idle

/-- Nothing else is registered. -/
def bothCaches : Installation User NoScope Unit Empty :=
  abcInstallation Empty.elim [.token, .basic] (by decide)

/-- With passwords next, both are served as who they are. -/
theorem exists_both_served :
    ∃ s : bothCaches.application.Run String Unit, Reachable bothCaches.application.machine s
      ∧ ServedAs s abcCall abcUser ∧ ServedAs s adaCall adaUser
      ∧ ∀ i r, s.Submitted i r → r = abcCall ∨ r = adaCall := by
  let start : Worlds bothCaches.application.parts := fun
    | .token => abcStart
    | .basic => abcStart
    | .other x => x.elim
  have hstart : (bothCaches.application.machine (B := String) (F := Unit)).init start := by
    intro k
    cases k with
    | token => rfl
    | basic => rfl
    | other x => exact x.elim
  exact exists_abc_run (k := .basic) rfl hstart rfl
    (alone_exchanged adaCall_credential adaCall_selectGrant 1)

/-- **Guarded, by both**: the first mechanism accepts the key and declines the password, which the
second one accepts. -/
theorem abc_gets_past :
    ∃ s : bothCaches.application.Run String Unit, ServedAs s abcCall abcUser
      ∧ ServedAs s adaCall adaUser ∧ Application.Guarded s := by
  obtain ⟨s, hs, hserved, hserved', -⟩ := exists_both_served
  exact ⟨s, hserved, hserved', Application.nothing_gets_past _ s hs⟩

/-- One principal is the key's and the other one is the password's. -/
theorem abc_identified :
    ∃ s : bothCaches.application.Run String Unit, ∃ i j,
      Installation.Identified s i abcCall abcUser ∧ Installation.Identified s j adaCall adaUser := by
  obtain ⟨s, hs, ⟨ev, hev, hreq, hdid⟩, ⟨ev', hev', hreq', hdid'⟩, honly⟩ := exists_both_served
  have hkey : ∀ key, Installation.PresentedKey s key → key = "abc" := by
    rintro key ⟨i, r, hi, hkey⟩
    rcases honly i r hi with rfl | rfl
    · exact Option.some.inj (hkey.symm.trans abcCall_key)
    · have hnone : (introspected (.fromSecs 300)).keyOf (abcContext adaCall).credential = some key := hkey
      rw [adaCall_credential] at hnone
      cases hnone
  have hsecret : ∀ secret, Installation.PresentedSecret s secret → secret = "abc" := by
    rintro secret ⟨i, r, id, hi, hcred⟩
    rcases honly i r hi with rfl | rfl
    · cases abcCall_credential.symm.trans hcred
    · exact ((Credential.basic.inj (adaCall_credential.symm.trans hcred)).2).symm
  have hprincipals := Installation.principals_stay_with_credentials bothCaches s hs
    (fun a b ha hb _ => (hkey a ha).trans (hkey b hb).symm)
    (fun a b ha hb _ => (hsecret a ha).trans (hsecret b hb).symm)
  -- whom the service has seen is whom the request stands for
  have hidentified : ∀ {ev r user}, ev ∈ s.view.history → ev.req = r →
      ev.Did (.own (ActixAuthnMiddleware.identified none user r)) (.ok "hello") →
      Installation.Identified s ev.task r user := by
    intro ev r user hev hreq hdid
    rcases hprincipals ev hev _ _ hdid with ⟨-, hpublic⟩ | ⟨user', hrequest, hidentified⟩
    · cases hpublic
    · rw [hreq] at hrequest hidentified
      have huser : user = user' := Option.some.inj
        (congrArg (fun r : ServiceRequest User Unit => r.extensions.principal) hrequest)
      rwa [← huser] at hidentified
  exact ⟨s, ev.task, ev'.task, hidentified hev hreq hdid, hidentified hev' hreq' hdid'⟩

end Example

end AuthnKit
