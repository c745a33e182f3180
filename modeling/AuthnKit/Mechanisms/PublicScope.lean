import AuthnKit.Core.Authorization
import AuthnKit.Core.ChainDecision
import AuthnKit.Mechanisms.OrderIrrelevance
import AuthnKit.Mechanisms.Session

/-!
# AuthnKit — public scopes and the shipped mechanisms

A chain of any of the four mechanisms, in any number and order, on a public scope under
`PublicScopePolicy.optional`. What the mechanisms reach for is a world of any kind.

A mechanism declines what it does not claim without an effect (`Mechanism.declines`), and decides
the rest (`Mechanism.decides`). Some credentials are claimed by none of the four, so a request can
carry one and still be anonymous.

* **`optional_decides`** — the first mechanism that claims the `Authorization` credential decides,
  unless an API-token and a bearer mechanism both take the token for theirs; one that nobody claims
  is anonymous.
* **`three_cases_fail`** — an opaque bearer token, a token without a scheme, and a pair that the
  first of two token endpoints is not asked for.
-/

namespace AuthnKit

variable {m : Type → Type} {U S W : Type}

/-- The mechanisms the crate ships; sessions without a login to redirect into. -/
inductive Mechanism (m : Type → Type) (U : Type) where
  | apiToken (a : ApiTokenAuthenticator m U)
  | bearer (a : BearerAuthenticator m)
  | basic (a : BasicAuthenticator m U)
  | session (provider : ProviderHandle m) (codec : SessionCodec)

namespace Mechanism

/-- What a mechanism decides, where an `Authorization` credential is presented. -/
def Claims [AuthScope S] (ctx : AuthContext S) : Mechanism m U → Prop
  | apiToken a => ∃ key, a.keyOf ctx.credential = some key
  | bearer _ => BearerAuthenticator.Claims ctx.credential
  | basic _ => BasicAuthenticator.Claims ctx.credential
  | session _ _ => ∃ raw, ctx.request.cookie (AuthScope.sessionCookieName ctx.scope) = some raw

variable [Monad m] [Principal U] [AuthScope S]

def authenticator (sys : Platform m) : Mechanism m U → Authenticator m U S
  | apiToken a => a.authenticator sys
  | bearer a => a.authenticator
  | basic a => a.authenticator sys.blake3
  | session provider codec => (SessionAuthenticator.withCodec provider codec).authenticator

variable {sys : Platform m} {ctx : AuthContext S} {mech : Mechanism m U}

/-- **What a mechanism does not claim it declines**, without touching anything. With a credential on
the header that holds of the session mechanism too, if there is no session cookie. -/
theorem declines (hcredential : ctx.credential.isNone = false) (h : ¬ mech.Claims ctx) :
    AuthChain.DeclinesPurely ctx (mech.authenticator sys) := by
  cases mech with
  | apiToken a =>
    have hkey : a.keyOf ctx.credential = none :=
      Option.eq_none_iff_forall_not_mem.mpr fun key hkey => h ⟨key, hkey⟩
    exact ApiTokenAuthenticator.authenticate_of_keyOf_eq_none hkey
  | bearer a => exact BearerAuthenticator.authenticate_of_not_claims h
  | basic a => exact BasicAuthenticator.authenticate_of_not_claims h
  | session provider codec =>
    have hcookie : ctx.request.cookie (AuthScope.sessionCookieName ctx.scope) = none :=
      Option.eq_none_iff_forall_not_mem.mpr fun raw hraw => h ⟨raw, hraw⟩
    exact SessionAuthenticator.authenticate_of_no_cookie hcookie hcredential

/-- **What a mechanism claims it decides**: it resolves a principal or fails, and passes nothing on.
-/
theorem decides [LawfulMonad m] (h : mech.Claims ctx) :
    ∃ p, (mech.authenticator sys).authenticate ctx = .authenticated <$> p := by
  cases mech with
  | apiToken a =>
    obtain ⟨key, hkey⟩ := h
    exact ⟨_, ApiTokenAuthenticator.authenticate_of_keyOf_eq_some hkey⟩
  | bearer a =>
    cases hc : ctx.credential with
    | bearer token =>
      have hshape : BearerAuthenticator.Claims ctx.credential := h
      rw [hc] at hshape
      exact ⟨_, BearerAuthenticator.authenticate_of_isCompactJws hc hshape⟩
    | _ =>
      have hshape : BearerAuthenticator.Claims ctx.credential := h
      rw [hc] at hshape
      exact hshape.elim
  | basic a => exact BasicAuthenticator.authenticate_of_claims h
  | session provider codec =>
    obtain ⟨raw, hraw⟩ := h
    exact ⟨_, SessionAuthenticator.authenticate_of_cookie rfl hraw⟩

end Mechanism

/-! ## One request

A chain of any mechanisms, a request and a world it meets: what the chain answers is compared with
what the single mechanisms would say. -/

/-- A chain of the mechanisms, and a request it is asked about in some world. -/
structure Visitor (U S W : Type) where
  sys : Platform (StateM W)
  mechanisms : List (Mechanism (StateM W) U)
  request : AuthRequest
  scope : S
  world : W

namespace Visitor

variable [Principal U] [AuthScope S] (v : Visitor U S W)

def credential : Credential := Credential.fromRequest v.request

def context : AuthContext S := ⟨v.request, v.credential, v.scope⟩

def header : Option String := v.request.header "authorization"

def cookie : Option String := v.request.cookie (AuthScope.sessionCookieName v.scope)

def chain : AuthChain (StateM W) U S := ⟨v.mechanisms.map (·.authenticator v.sys), .optional⟩

def answer : Except AuthError (Outcome U) :=
  ((v.chain.authenticate v.request v.credential v.scope).run.run v.world).1

/-- What one mechanism says when it is asked alone. -/
def saidBy (mech : Mechanism (StateM W) U) : Except AuthError (Verdict U) :=
  ((mech.authenticator v.sys).party v.context v.world).1

/-- The request carries exactly one of the header and the cookie. -/
def CarriesOne : Prop := v.header.isSome ≠ v.cookie.isSome

/-- **The three cases**, where a header or a session cookie is a credential: none is anonymous, a
valid one is authenticated, an invalid one an error. -/
structure ThreeCases : Prop where
  neither : v.header = none → v.cookie = none → v.answer = .ok .anonymous
  valid : v.CarriesOne → ∀ mech ∈ v.mechanisms, ∀ user, v.saidBy mech = .ok (.authenticated user) →
    v.answer = .ok (.authenticated user)
  invalid : v.CarriesOne →
    (∀ mech ∈ v.mechanisms, ∀ user, v.saidBy mech ≠ .ok (.authenticated user)) →
    ∃ e, v.answer = .error e
  never_anonymous : v.header ≠ none ∨ v.cookie ≠ none → v.answer ≠ .ok .anonymous

/-- The answer of the chain is the one of a mechanism, and not anonymous. -/
inductive AnswersAs (mech : Mechanism (StateM W) U) : Prop where
  | authenticated (user : U) (hsaid : v.saidBy mech = .ok (.authenticated user))
      (h : v.answer = .ok (.authenticated user))
  | error (e : AuthError) (hsaid : v.saidBy mech = .error e) (h : v.answer = .error e)

/-- A token that mechanisms of two kinds take for theirs: it carries the prefix of an API-token
mechanism, and has the shape a bearer mechanism looks for. -/
def Contested : Prop :=
  (∃ a, .apiToken a ∈ v.mechanisms ∧ (Mechanism.apiToken a).Claims v.context)
    ∧ ∃ b, .bearer b ∈ v.mechanisms ∧ (Mechanism.bearer b : Mechanism (StateM W) U).Claims v.context

/-- **What the chain decides by**: the credential of the header, and who claims it first. Of a
contested token nothing is said. -/
structure Decides : Prop where
  neither : v.credential = .none → v.cookie = none → v.answer = .ok .anonymous
  claimed : v.credential ≠ .none → ¬ v.Contested →
    ∀ before mech after, v.mechanisms = before ++ mech :: after →
      (∀ mech' ∈ before, ¬ mech'.Claims v.context) → mech.Claims v.context → v.AnswersAs mech
  unclaimed : v.credential ≠ .none → (∀ mech ∈ v.mechanisms, ¬ mech.Claims v.context) →
    v.answer = .ok .anonymous

variable {v}

/-- Without a credential on the header nobody is asked, and the visitor is anonymous. -/
theorem answer_of_none (hpublic : AuthScope.isPublic v.scope = true)
    (h : v.credential = Credential.none) : v.answer = .ok .anonymous := by
  unfold answer
  rw [AuthChain.authenticate_of_skips (by rw [hpublic, h]; rfl)]
  rfl

omit [Principal U] [AuthScope S] in
/-- A credential on the header is there to be looked at. -/
theorem isNone_eq_false (h : v.credential ≠ .none) : v.context.credential.isNone = false := by
  rw [← Bool.not_eq_true]
  exact fun hnone => h (Credential.isNone_iff.mp hnone)

theorem declines_of_not_claims (h : v.credential ≠ .none) {l : List (Mechanism (StateM W) U)}
    (hl : ∀ mech ∈ l, ¬ mech.Claims v.context) :
    ∀ a ∈ l.map (·.authenticator v.sys), AuthChain.DeclinesPurely v.context a := by
  intro a ha
  obtain ⟨mech, hmech, rfl⟩ := List.mem_map.mp ha
  exact Mechanism.declines (isNone_eq_false h) (hl mech hmech)

theorem answer_of_unclaimed (hpublic : AuthScope.isPublic v.scope = true)
    (h : v.credential ≠ .none) (hnone : ∀ mech ∈ v.mechanisms, ¬ mech.Claims v.context) :
    v.answer = .ok .anonymous := by
  have hconsult : AuthChain.consult v.context v.chain.authenticators = pure .notApplicable := by
    have hskip := AuthChain.consult_append_of_declines (declines_of_not_claims h hnone) []
    rw [List.append_nil] at hskip
    exact hskip
  unfold answer
  rw [AuthChain.authenticate_of_declined hpublic hconsult]
  rfl

/-- **The first mechanism that claims the credential decides**: those before it are skipped, and
those after it are not reached. -/
theorem answer_of_claimed (h : v.credential ≠ .none) {before after : List (Mechanism (StateM W) U)}
    {mech : Mechanism (StateM W) U} (hl : v.mechanisms = before ++ mech :: after)
    (hbefore : ∀ mech' ∈ before, ¬ mech'.Claims v.context) (hclaims : mech.Claims v.context) :
    v.AnswersAs mech := by
  obtain ⟨p, hp⟩ : ∃ p : ExceptT AuthError (StateM W) U,
      (mech.authenticator v.sys).authenticate v.context = .authenticated <$> p := Mechanism.decides hclaims
  -- those before it decline, and those after it are not asked
  have hconsult : AuthChain.consult v.context v.chain.authenticators = .authenticated <$> p := by
    unfold chain
    simp only
    rw [hl, List.map_append, List.map_cons,
      AuthChain.consult_append_of_declines (declines_of_not_claims h hbefore)]
    exact AuthChain.consult_cons_of_resolves hp _
  have hskip : (AuthScope.isPublic v.scope && v.chain.publicScopePolicy.skips v.credential) = false := by
    rw [show v.chain.publicScopePolicy.skips v.credential = false from isNone_eq_false h,
      Bool.and_false]
  have hanswer : v.answer = (p.run.run v.world).1.map .authenticated := by
    unfold answer
    rw [AuthChain.authenticate_of_consult hskip hconsult, ExceptT.run_map, StateT.run_map]
    rfl
  have hsaid : v.saidBy mech = (p.run.run v.world).1.map .authenticated := by
    unfold saidBy Authenticator.party
    rw [hp, ExceptT.run_map, StateT.run_map]
    rfl
  cases hresult : (p.run.run v.world).1 with
  | error e =>
    rw [hresult] at hanswer hsaid
    exact .error e hsaid hanswer
  | ok user =>
    rw [hresult] at hanswer hsaid
    exact .authenticated user hsaid hanswer

/-- **A public scope under `optional`**: with neither a credential nor a session cookie, or with a
credential that nobody claims, the visitor is anonymous; with one that is claimed, and not
contested, the answer is that of the first mechanism that claims it. -/
theorem optional_decides (hpublic : AuthScope.isPublic v.scope = true) : v.Decides where
  neither h _ := answer_of_none hpublic h
  claimed h _ _ _ _ hl hbefore hclaims := answer_of_claimed h hl hbefore hclaims
  unclaimed h hnone := answer_of_unclaimed hpublic h hnone

/-! ### An open page

A service with open pages, all four mechanisms, and headers that each of them takes or leaves. -/

/-- A service with open pages and tenants. -/
inductive SiteScope where
  | anyone
  | tenant (name : String)

instance : AuthScope SiteScope where
  display
    | .anyone => "public"
    | .tenant name => name
  isPublic
    | .anyone => true
    | .tenant _ => false
  cacheDiscriminator
    | .anyone => Option.none
    | .tenant name => some name

/-- A provider that accepts no token. -/
def strictProvider : ProviderHandle (StateM Unit) where
  config := Deployment.dottedDeployment.config
  lib := Deployment.dottedDeployment.lib
  snapshot := pure Deployment.dottedDeployment.state
  verifyIdToken token nonce := ExceptT.mk (pure (Deployment.dottedDeployment.verify token nonce))
  requestAsync request := pure (Deployment.dottedDeployment.tokenEndpoint request)

def noCache : CacheHandle (StateM Unit) User := ⟨fun _ => pure Option.none, fun _ _ _ => pure ()⟩

def ciToken : StaticToken where
  secret := "abc123"
  claims := IdentityClaims.new .staticToken
    |>.withSubject "ci" |>.withPreferredUsername "ci" |>.withEmail "ci"
  scopes := Option.none
  secret_ne := by decide

def listed : ApiTokenAuthenticator (StateM Unit) User :=
  ⟨"sptok_", [ciToken], Option.none, noCache, .fromSecs 300, sptok_ne_empty⟩

/-- A request with this header for an open page, to a chain of all four mechanisms. -/
def pageVisitor (authorization : String) : Visitor User SiteScope Unit where
  sys := ⟨fun _ => Vector.replicate 32 0, pure .epoch⟩
  mechanisms := [.bearer ⟨strictProvider⟩, .apiToken listed,
    .basic ⟨strictProvider, noCache, false⟩, .session strictProvider idTokenCodec]
  request := (({} : AuthRequestBuilder).header "authorization" authorization).build
  scope := .anyone
  world := ()

theorem header_pageVisitor (authorization : String) :
    (pageVisitor authorization).header = some authorization := by
  unfold header pageVisitor
  rw [AuthRequest.header_eq_head?, AuthRequestBuilder.headerAll_header _ rfl]
  rfl

theorem credential_pageVisitor (authorization : String) :
    (pageVisitor authorization).credential = Credential.fromAuthorizationHeader authorization := by
  unfold credential Credential.fromRequest
  rw [show (pageVisitor authorization).request.header "authorization" = some authorization from
    header_pageVisitor authorization]

/-- What any of the four mechanisms claims of a bearer token has the shape of a JWT or the prefix of
a key. -/
theorem claims_pageVisitor {authorization token : String}
    (h : Credential.fromAuthorizationHeader authorization = .bearer token) :
    ∀ mech ∈ (pageVisitor authorization).mechanisms,
      mech.Claims (pageVisitor authorization).context
        → isCompactJws token = true ∨ ∃ key, token = "sptok_" ++ key := by
  have hcredential : (pageVisitor authorization).context.credential = .bearer token :=
    (credential_pageVisitor authorization).trans h
  intro mech hmech hclaims
  unfold pageVisitor at hmech
  simp only [List.mem_cons, List.not_mem_nil, or_false] at hmech
  rcases hmech with rfl | rfl | rfl | rfl
  · have hshape : BearerAuthenticator.Claims (pageVisitor authorization).context.credential := hclaims
    rw [hcredential] at hshape
    exact .inl hshape
  · obtain ⟨key, hkey⟩ := hclaims
    have hcred := ApiTokenAuthenticator.keyOf_eq_some.mp hkey
    rw [hcredential] at hcred
    exact .inr ⟨key, Credential.bearer.inj hcred⟩
  · have hpair : BasicAuthenticator.Claims (pageVisitor authorization).context.credential := hclaims
    rw [hcredential] at hpair
    exact hpair.elim
  · obtain ⟨raw, hraw⟩ := hclaims
    cases hraw

/-- A request that carries a header and is anonymous is none of the three cases. -/
theorem not_threeCases {authorization : String}
    (h : (pageVisitor authorization).answer = .ok .anonymous) :
    ¬ (pageVisitor authorization).ThreeCases := by
  intro hcases
  refine hcases.never_anonymous (.inl ?_) h
  rw [header_pageVisitor]
  exact fun hnone => nomatch hnone

/-- A token that no mechanism knows, with the scheme for it, leaves the visitor anonymous. -/
theorem opaque_anonymous : (pageVisitor "Bearer opaque").answer = .ok .anonymous := by
  have hbearer : Credential.fromAuthorizationHeader "Bearer opaque" = .bearer "opaque" := by
    decide +kernel
  refine answer_of_unclaimed rfl ?_ ?_
  · rw [credential_pageVisitor, hbearer]
    exact fun hnone => nomatch hnone
  · intro mech hmech hclaims
    rcases claims_pageVisitor hbearer mech hmech hclaims with hshape | ⟨key, hkey⟩
    · exact absurd hshape (by decide)
    · have hstarts : Text.startsWith "sptok_" "opaque" = true := Text.startsWith_iff.mpr ⟨key, hkey⟩
      exact absurd hstarts (by decide)

/-- A provider whose token endpoint grants Ada's password. -/
def grantingProvider : ProviderHandle (StateM Unit) where
  config := strictProvider.config
  lib := strictProvider.lib
  snapshot := strictProvider.snapshot
  verifyIdToken _ _ := pure { subject := some "ada", email := some "ada@example.com" }
  requestAsync _ := pure (.ok ⟨Option.none, some ⟨"a.b.c"⟩⟩)

/-- A snapshot of a provider with a token endpoint. -/
def tokenState : ProviderState where
  metadata := ⟨"https://issuer/authorize", some "https://issuer/token", Option.none, []⟩
  client := ⟨⟨"https://issuer/authorize", some "https://issuer/token", Option.none, []⟩, "app",
    Option.none, "https://app/cb"⟩
  fetchedAt := ⟨0, Instant.zero_lt_max⟩

def machinesOnly : BasicAuthenticator (StateM Unit) User := ⟨strictProvider, noCache, false⟩

def passwords : BasicAuthenticator (StateM Unit) User :=
  ⟨{ grantingProvider with snapshot := pure tokenState }, noCache, true⟩

/-- A password for an open page, to a mechanism for machines and then one for passwords. -/
def passwordVisitor : Visitor User SiteScope Unit :=
  { pageVisitor "Basic aWQ6cw==" with
    mechanisms := [.basic machinesOnly, .basic passwords]
    request := ((({} : AuthRequestBuilder).header "authorization" "Basic aWQ6cw==").header
      "x-grant-type" "password").build }

/-- The second mechanism would accept the password, and the first one fails. -/
theorem password_error : ∃ mech ∈ passwordVisitor.mechanisms,
    passwordVisitor.saidBy mech = .ok (.authenticated ⟨"ada@example.com", "ada@example.com"⟩)
      ∧ ∃ e, passwordVisitor.answer = .error e := by
  have hcredential : passwordVisitor.context.credential = .basic "id" "s" := by decide +kernel
  have hgrant : passwordVisitor.context.request.header grantTypeHeader = some "password" := by
    decide +kernel
  have hclaims : ∀ a : BasicAuthenticator (StateM Unit) User,
      (Mechanism.basic a).Claims passwordVisitor.context := by
    intro a
    show BasicAuthenticator.Claims passwordVisitor.context.credential
    rw [hcredential]
    exact trivial
  refine ⟨.basic passwords, List.mem_cons_of_mem _ List.mem_cons_self, ?_, ?_⟩
  · -- asked alone, it exchanges the pair
    show ((passwords.authenticate _ passwordVisitor.context).run.run ()).1 = _
    unfold BasicAuthenticator.authenticate
    simp only [hcredential, hgrant]
    rfl
  · have hne : passwordVisitor.credential ≠ .none := by
      rw [show passwordVisitor.credential = _ from hcredential]
      exact fun hnone => nomatch hnone
    have hfirst : passwordVisitor.mechanisms = [] ++ .basic machinesOnly :: [.basic passwords] := rfl
    cases answer_of_claimed hne hfirst (fun _ h => absurd h List.not_mem_nil) (hclaims _) with
    | error e _ h => exact ⟨e, h⟩
    | authenticated user hsaid =>
      have hrefused : passwordVisitor.saidBy (.basic machinesOnly)
          = .error (.unsupported "the resource-owner password grant is not enabled") := by
        show ((machinesOnly.authenticate _ passwordVisitor.context).run.run ()).1 = _
        unfold BasicAuthenticator.authenticate
        simp only [hcredential, hgrant]
        rfl
      cases hrefused.symm.trans hsaid

/-- **The three cases fail** for a token no mechanism knows, one without a scheme, and a password
that the first of two mechanisms for pairs does not take. -/
theorem three_cases_fail : ¬ (pageVisitor "Bearer opaque").ThreeCases
    ∧ ¬ (pageVisitor "opaque").ThreeCases
    ∧ ¬ passwordVisitor.ThreeCases := by
  refine ⟨not_threeCases opaque_anonymous, not_threeCases (answer_of_none rfl ?_), ?_⟩
  · rw [credential_pageVisitor]
    decide +kernel
  · intro hcases
    obtain ⟨mech, hmech, hsaid, e, herror⟩ := password_error
    have hone : passwordVisitor.CarriesOne := by
      unfold CarriesOne
      decide +kernel
    have hvalid := hcases.valid hone mech hmech _ hsaid
    rw [herror] at hvalid
    cases hvalid

/-- An API key on the list, for an open page. -/
def keyVisitor : Visitor User SiteScope Unit := pageVisitor "Bearer sptok_abc123"

/-- An API key on the list: claimed by the second of the four mechanisms alone, and accepted. -/
theorem page_decides : keyVisitor.Decides
    ∧ ¬ keyVisitor.Contested
    ∧ keyVisitor.answer = .ok (.authenticated ⟨"ci", "ci"⟩) := by
  have hcredential : keyVisitor.context.credential = .bearer "sptok_abc123" := by
    decide +kernel
  have hdecides : keyVisitor.Decides := optional_decides rfl
  have hshape : ¬ BearerAuthenticator.Claims keyVisitor.context.credential := by
    rw [hcredential]
    decide
  have hcontested : ¬ keyVisitor.Contested := fun h =>
    h.2.elim fun _ hb => hshape hb.2
  have hkey : listed.keyOf keyVisitor.context.credential = some "abc123" := by
    rw [hcredential]
    exact ApiTokenAuthenticator.keyOf_eq_some.mpr rfl
  refine ⟨hdecides, hcontested, ?_⟩
  have hsaid : keyVisitor.saidBy (.apiToken listed)
      = .ok (.authenticated ⟨"ci", "ci"⟩) := by
    unfold saidBy Authenticator.party
    rw [show (Mechanism.authenticator _ (.apiToken listed)).authenticate _ = _ from
      ApiTokenAuthenticator.authenticate_of_keyOf_eq_some hkey]
    rfl
  have hne : keyVisitor.credential ≠ .none := by
    rw [show keyVisitor.credential = _ from hcredential]
    exact fun hnone => nomatch hnone
  have hbefore : ∀ mech ∈ [(.bearer ⟨strictProvider⟩ : Mechanism (StateM Unit) User)],
      ¬ mech.Claims keyVisitor.context := by
    intro mech hmech
    rw [List.mem_singleton.mp hmech]
    exact hshape
  cases hdecides.claimed hne hcontested [.bearer ⟨strictProvider⟩] (.apiToken listed)
      [.basic ⟨strictProvider, noCache, false⟩, .session strictProvider idTokenCodec] rfl hbefore
      ⟨_, hkey⟩ with
  | authenticated user hsaid' h =>
    rw [h]
    cases hsaid.symm.trans hsaid'
    rfl
  | error e hsaid' => cases hsaid.symm.trans hsaid'

end Visitor

end AuthnKit
