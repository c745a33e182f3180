import AuthnKit.Adapters.Cookies
import AuthnKit.Mechanisms.SessionRedirect
import AuthnKit.Oidc.Browser
import AuthnKit.Oidc.RedirectSafety

/-!
# AuthnKit — challenge, login, retry

A session authenticator reads the cookie its scope names; the login it redirects into sets the
cookie of its own settings, and then removes the protection cookie. A browser that follows the
redirect, completes the login and comes back is followed through its cookie jar.

* **`Visit.Presents`** — what the callback may present to `complete` as the protection cookie.
* **`closes_iff`** — the login closes the loop exactly when the two names agree and, for every
  session the browser can have minted, no other value of the name is shown.
* **`org_loops`** — a scope per organisation, with the default settings.
-/

namespace AuthnKit

variable {U S : Type}

/-! ## A browser

The claim is about what a browser sends back, so the browser is part of the model: it holds cookies,
applies those of two responses and shows what is in reach of a page and has not expired. -/

/-- A browser on its way through a login: what it holds before it, when it receives the redirect,
when it delivers the callback and receives the completed login, and when it requests the page again.
Which cookies belong to the callback and which to the page is up to their domains and paths. -/
structure Visit where
  jar : CookieJar
  challengedAt : ℕ
  completedAt : ℕ
  nextAt : ℕ
  withinCallback : CookieId → Bool
  within : CookieId → Bool
  defaultPath : String

namespace Visit

variable (b : Visit) (login : LoginService)

/-- The jar once the cookies of the redirect have been applied. -/
def afterRedirect (redirect : List CookieDirective) : CookieJar :=
  CookieJar.receiveAll b.challengedAt b.jar (redirect.map (·.received b.defaultPath))

def shownAtCallback (redirect : List CookieDirective) : List (String × String) :=
  (b.afterRedirect redirect).shown b.completedAt b.withinCallback

/-- The jar after the cookies of the redirect and those of the completed login. -/
def afterLogin (redirect done : List CookieDirective) : CookieJar :=
  CookieJar.receiveAll b.completedAt (b.afterRedirect redirect) (done.map (·.received b.defaultPath))

def shownNext (redirect done : List CookieDirective) : List (String × String) :=
  (b.afterLogin redirect done).shown b.nextAt b.within

/-- The next request is within the domain, path and lifetime of the session cookie. -/
def Timely : Prop :=
  b.completedAt ≤ b.nextAt ∧ b.nextAt < b.completedAt + login.session.maxAge.asSecs
    ∧ b.within login.session.id = true

/-- A cookie of the browser that the login does not touch is shown as well, at `now` and on the page
of `page`, under `name` and with `value`. -/
def Untouched (now : ℕ) (page : CookieId → Bool) (name value : String) : Prop :=
  ∃ id cookie, b.jar.lookup id = some cookie ∧ cookie.expired now = false ∧ page id = true
    ∧ id.name = name ∧ cookie.value = value ∧ id ≠ login.session.id ∧ id ≠ login.protection.id

/-- The next request shows a cookie that the login does not touch. -/
abbrev Other (name value : String) : Prop := b.Untouched login b.nextAt b.within name value

/-- **What the callback may present to `complete`** once a redirect has set the protection cookie to
`value`: that value, while it lives and unless the redirect's own clear of the session cookie has
removed it again, or what the browser holds under the name from elsewhere. -/
def Presents (value w : String) : Prop :=
  (login.session.id ≠ login.protection.id ∧ value = w ∧ login.protection.maxAge.asSecs ≠ 0
      ∧ b.completedAt < b.challengedAt + login.protection.maxAge.asSecs
      ∧ b.withinCallback login.protection.id = true)
    ∨ b.Untouched login b.completedAt b.withinCallback login.protection.name w

variable {b login}

/-! ## What the browser shows

Redirect and completed login each set one of the two cookies and clear the other one. If both
cookies have the same identity, the later directive of a response undoes the earlier one. -/

/-- **What a redirect leaves in the jar**: the protection cookie with its value, nothing under the
session cookie's identity, and everything else as it was. The clear comes second, and wins if the
two are the same. -/
theorem lookup_afterRedirect (value : String) (id : CookieId) :
    (b.afterRedirect [login.protection.set value, login.session.clear]).lookup id
      = if id = login.session.id then none
        else if id = login.protection.id then
          ((login.protection.set value).received b.defaultPath).stored b.challengedAt
        else b.jar.lookup id := by
  unfold afterRedirect
  simp only [List.map_cons, List.map_nil]
  rw [CookieJar.lookup_receiveAll_pair, CookieSettings.stored_clear,
    CookieSettings.id_received_clear, CookieSettings.id_received_set]

/-- **What the callback shows as the protection cookie** is what it may present: the value that was
set, or a cookie of the same name from elsewhere. -/
theorem mem_shownAtCallback {value w : String} :
    (login.protection.name, w)
        ∈ b.shownAtCallback [login.protection.set value, login.session.clear]
      ↔ b.Presents login value w := by
  unfold shownAtCallback
  rw [CookieJar.mem_shown]
  constructor
  · intro ⟨id, cookie, hlookup, halive, hpage, hname, hvalue⟩
    rw [lookup_afterRedirect] at hlookup
    split at hlookup
    next => exact absurd hlookup (by simp)
    next hsession =>
      split at hlookup
      next hprotection =>
        -- the cookie the redirect has set
        have hage : login.protection.maxAge.asSecs ≠ 0 := by
          intro hzero
          have hgone : ((login.protection.set value).received b.defaultPath).stored b.challengedAt
              = none := if_pos (congrArg some hzero)
          exact absurd (hgone.symm.trans hlookup) (by simp)
        rw [CookieSettings.stored_set _ hage] at hlookup
        obtain rfl := Option.some.inj hlookup
        have hlives : decide (b.challengedAt + login.protection.maxAge.asSecs ≤ b.completedAt)
            = false := halive
        rw [decide_eq_false_iff_not, Nat.not_le] at hlives
        rw [hprotection] at hsession hpage
        exact .inl ⟨fun hsame => hsession hsame.symm, hvalue, hage, hlives, hpage⟩
      next hprotection =>
        exact .inr ⟨id, cookie, hlookup, halive, hpage, hname, hvalue, hsession, hprotection⟩
  · rintro (⟨hdiffer, rfl, hage, hlives, hpage⟩
      | ⟨id, cookie, hlookup, halive, hpage, hname, hvalue, hsession, hprotection⟩)
    · refine ⟨login.protection.id, ⟨value, some (b.challengedAt + login.protection.maxAge.asSecs)⟩,
        ?_, ?_, hpage, rfl, rfl⟩
      · rw [lookup_afterRedirect, if_neg fun hsame => hdiffer hsame.symm, if_pos rfl,
          CookieSettings.stored_set _ hage]
      · show decide (b.challengedAt + login.protection.maxAge.asSecs ≤ b.completedAt) = false
        exact decide_eq_false (by omega)
    · refine ⟨id, cookie, ?_, halive, hpage, hname, hvalue⟩
      rw [lookup_afterRedirect, if_neg hsession, if_neg hprotection, hlookup]

/-- The cookie `complete` is given, whatever the order in which the callback shows its cookies, is
one that it may present. -/
theorem presents_of_cookie {value w : String} {parts : HttpParts} {sent : List (String × String)}
    (hsent : sent.Perm (b.shownAtCallback [login.protection.set value, login.session.clear]))
    (hcookie : (parts.builder.withCookies sent).build.cookie login.protection.name = some w) :
    b.Presents login value w := by
  rw [HttpParts.cookie_withCookies] at hcookie
  exact mem_shownAtCallback.mp (hsent.mem_iff.mp (Table.mem_of_lastValue hcookie))

/-- Everything that may be presented is, in some order: a cookie that is shown last is the one that
is read. -/
theorem exists_cookie_of_presents {value w : String} (h : b.Presents login value w)
    (parts : HttpParts) :
    ∃ sent, sent.Perm (b.shownAtCallback [login.protection.set value, login.session.clear])
      ∧ (parts.builder.withCookies sent).build.cookie login.protection.name = some w := by
  obtain ⟨sent, hperm, hlast⟩ := Table.exists_perm_lastValue (mem_shownAtCallback.mpr h)
  exact ⟨sent, hperm, by rw [HttpParts.cookie_withCookies, hlast]⟩

/-- **What a login leaves in the jar**: nothing under the protection cookie's identity, the session
with its lifetime, and everything else as it was before the redirect. -/
theorem lookup_afterLogin (hage : login.session.maxAge.asSecs ≠ 0) (value session : String)
    (id : CookieId) :
    (b.afterLogin [login.protection.set value, login.session.clear]
      [login.session.set session, login.protection.clear]).lookup id
      = if id = login.protection.id then none
        else if id = login.session.id then
          some ⟨session, some (b.completedAt + login.session.maxAge.asSecs)⟩
        else b.jar.lookup id := by
  unfold afterLogin
  simp only [List.map_cons, List.map_nil]
  rw [CookieJar.lookup_receiveAll_pair, lookup_afterRedirect, CookieSettings.stored_clear,
    login.session.stored_set hage, CookieSettings.id_received_clear, CookieSettings.id_received_set]
  by_cases hprotection : id = login.protection.id
  · rw [if_pos hprotection, if_pos hprotection]
  · simp only [if_neg hprotection]
    by_cases hsession : id = login.session.id
    · rw [if_pos hsession, if_pos hsession]
    · simp only [if_neg hsession]

/-- **What the next request shows under a name**: the session, unless the protection cookie was the
same one, and the cookies the login does not touch. -/
theorem mem_shownNext (htimely : b.Timely login) {value session name w : String} :
    (name, w) ∈ b.shownNext [login.protection.set value, login.session.clear]
        [login.session.set session, login.protection.clear]
      ↔ (login.session.id ≠ login.protection.id ∧ login.session.name = name ∧ session = w)
        ∨ b.Other login name w := by
  obtain ⟨hafter, hbefore, hwithin⟩ := htimely
  have hage : login.session.maxAge.asSecs ≠ 0 := by omega
  unfold shownNext
  rw [CookieJar.mem_shown]
  constructor
  · intro ⟨id, cookie, hlookup, halive, hpage, hname, hvalue⟩
    rw [lookup_afterLogin hage] at hlookup
    split at hlookup
    next => exact absurd hlookup (by simp)
    next hprotection =>
      split at hlookup
      next hsession =>
        left
        rw [← Option.some.inj hlookup] at hvalue
        rw [hsession] at hprotection hname
        exact ⟨hprotection, hname, hvalue⟩
      next hsession =>
        right
        exact ⟨id, cookie, hlookup, halive, hpage, hname, hvalue, hsession, hprotection⟩
  · intro h
    rcases h with ⟨hdiffer, hname, hvalue⟩ | hother
    · -- the session cookie is alive
      refine ⟨login.session.id, ⟨session, some (b.completedAt + login.session.maxAge.asSecs)⟩, ?_, ?_,
        hwithin, hname, hvalue⟩
      · rw [lookup_afterLogin hage, if_neg hdiffer, if_pos rfl]
      · show decide (b.completedAt + login.session.maxAge.asSecs ≤ b.nextAt) = false
        exact decide_eq_false (by omega)
    · obtain ⟨id, cookie, hlookup, halive, hpage, hname, hvalue, hsession, hprotection⟩ := hother
      refine ⟨id, cookie, ?_, halive, hpage, hname, hvalue⟩
      rw [lookup_afterLogin hage, if_neg hprotection, if_neg hsession, hlookup]

/-- **The minted session is what the next request presents**, in whatever order it shows its
cookies, exactly when it is shown at all and nothing else is shown under that name. -/
theorem presents_iff (htimely : b.Timely login) {value session name : String}
    (hname : login.session.name = name) :
    (∀ (parts : HttpParts) sent,
        sent.Perm (b.shownNext [login.protection.set value, login.session.clear]
          [login.session.set session, login.protection.clear]) →
        (parts.builder.withCookies sent).build.cookie name = some session)
      ↔ (login.session.id = login.protection.id → ∃ w, b.Other login name w)
        ∧ ∀ w, b.Other login name w → w = session := by
  have hlast : (∀ (parts : HttpParts) sent,
        sent.Perm (b.shownNext [login.protection.set value, login.session.clear]
          [login.session.set session, login.protection.clear]) →
        (parts.builder.withCookies sent).build.cookie name = some session)
      ↔ ∀ sent, sent.Perm (b.shownNext [login.protection.set value, login.session.clear]
          [login.session.set session, login.protection.clear]) →
        Table.lastValue name sent = some session := by
    simp only [HttpParts.cookie_withCookies]
    constructor
    · intro h
      exact h ⟨"", "", none, none, []⟩
    · intro h parts
      exact h
  -- over every order the last value is the session exactly when every value is, and there is one
  rw [hlast, Table.lastValue_of_perm_iff]
  simp only [mem_shownNext htimely]
  constructor
  · intro h
    obtain ⟨⟨w, hw⟩, hall⟩ := h
    refine ⟨?_, ?_⟩
    · intro hsame
      rcases hw with ⟨hdiffer, -, -⟩ | hother
      · exact absurd hsame hdiffer
      · exact ⟨w, hother⟩
    · intro w' hother
      exact hall w' (.inr hother)
  · intro h
    obtain ⟨hsame, hall⟩ := h
    refine ⟨?_, ?_⟩
    · by_cases hid : login.session.id = login.protection.id
      · obtain ⟨w, hother⟩ := hsame hid
        exact ⟨w, .inr hother⟩
      · exact ⟨session, .inl ⟨hid, hname, rfl⟩⟩
    · intro w hw
      rcases hw with ⟨-, -, hvalue⟩ | hother
      · exact hvalue.symm
      · exact hall w hother

end Visit

/-! ## The loop

A redirect that the session mechanism answers with, a callback that completes the login, and the
request that is made again. The loop is closed if the mechanism then finds the session that was
minted. -/

/-- A session that a login of this browser can mint: one that can begin, and that completes with what
the callback may then present. -/
def Visit.Mints (b : Visit) (login : LoginService) (session : String) : Prop :=
  ∃ destination pkce csrf nonce value, login.redirectPolicy.validate destination = .ok ()
    ∧ Option.isSome pkce = login.config.usePkce
    ∧ (LoginService.protectionOf pkce csrf nonce destination).encode login.serde = .ok value
    ∧ ∃ w protection, b.Presents login value w
      ∧ ProtectionData.decode login.serde w = .ok protection
      ∧ login.Mints protection.nonce session

namespace SessionService

variable (c : SessionService) (U) [Principal U] [AuthScope S]

/-- **Login closes the loop** on scope `s`, for a browser `b`: of every redirect that answers a
`GET`, the stale session it clears is the cookie of the scope, and once the login is completed, by a
callback with whatever protection cookie the browser then shows, the next request presents the
session it minted. -/
def ClosesLoop (login : LoginService) (s : S) (b : Visit) : Prop :=
  ∀ ctx : AuthContext S, ctx.scope = s → ctx.request.method = "GET" →
    ∀ tr location cookies,
      Prog.Returns (c.authenticator.authenticate ctx).run tr
        (.error (.redirect location cookies) : Except AuthError (Verdict U)) →
      c.Genuine tr →
      (login.session.clear ∈ cookies ∧ login.session.clear.name = AuthScope.sessionCookieName s)
      ∧ ∀ (atCallback : HttpParts) presented, presented.Perm (b.shownAtCallback cookies) →
        ∀ callback tr' done session,
          Prog.Returns (login.flow.complete callback
            ((atCallback.builder.withCookies presented).build.cookie login.protection.name)).run
            tr' (.ok done) →
          login.Genuine tr' → done.cookies.head? = some (login.session.set session) →
          ∀ (parts : HttpParts) sent, sent.Perm (b.shownNext cookies done.cookies) →
            (parts.builder.withCookies sent).build.cookie (AuthScope.sessionCookieName s)
              = some session

/-- A navigation to a path, with nothing to authenticate it. -/
def navigation (s : S) (path : String) : AuthContext S where
  request := { method := "GET", path := path }
  credential := .none
  scope := s

variable {c U} {login : LoginService} {s : S}

/-- A navigation is redirected into every login that can begin: it carries no session and no
credential that another mechanism would want. -/
theorem navigation_redirected (hlogin : c.login = some login) {path : String} {tr : LoginTrace}
    {redirect : AuthorizationRedirect} (h : login.Begins path tr redirect) :
    c.Genuine tr
      ∧ Prog.Returns (c.authenticator.authenticate (navigation s path)).run tr
        (.error (.redirect redirect.location redirect.cookies) : Except AuthError (Verdict U)) := by
  constructor
  · intro token nonce a hmem
    exact absurd hmem (h.not_mem_verifyIdToken token nonce a)
  · have hfor : c.loginFor (navigation s path).request = some login := hlogin
    rw [run_authenticate]
    exact challenged_of_begins hfor h _

/-- **Login closes the loop** exactly when the session cookie has the name the scope gives it and,
for every session the browser can have minted, the next request shows no other value under that
name, and shows one at all: where session and protection cookie are the same cookie, the end of the
login removes what it has set. -/
theorem closes_iff (hlogin : c.login = some login) {b : Visit} (htimely : b.Timely login) :
    c.ClosesLoop U login s b
      ↔ ((∃ destination, login.CanBegin destination) →
          login.session.name = AuthScope.sessionCookieName s)
        ∧ ∀ session, b.Mints login session →
          (login.session.id = login.protection.id →
            ∃ w, b.Other login (AuthScope.sessionCookieName s) w)
          ∧ ∀ w, b.Other login (AuthScope.sessionCookieName s) w → w = session := by
  constructor
  · intro h
    refine ⟨?_, ?_⟩
    · intro ⟨destination, hbegin⟩
      obtain ⟨tr, redirect, hbegins⟩ := login.canBegin_iff.mp hbegin
      obtain ⟨hgen, hret⟩ := navigation_redirected (U := U) (s := s) hlogin hbegins
      exact (h _ rfl rfl tr _ _ hret hgen).1.2
    · intro session hminted
      obtain ⟨destination, pkce, csrf, nonce, value, hvalid, hpkce, hvalue, w, protection, hpresents,
        hdecode, hmints⟩ := hminted
      -- the login that draws these, and the callback that completes it with what is presented
      have hbegins := LoginService.Begins.intro (c := login)
        (login.provider.stateOf ⟨"", none, none, []⟩ ⟨0, Instant.zero_lt_max⟩) pkce csrf nonce value
        hvalid hpkce hvalue
      obtain ⟨hgen, hret⟩ := navigation_redirected (U := U) (s := s) hlogin hbegins
      obtain ⟨⟨-, hname⟩, hcloses⟩ := h _ rfl rfl _ _ _ hret hgen
      obtain ⟨presented, hperm, hcookie⟩ :=
        Visit.exists_cookie_of_presents hpresents ⟨"", "", none, none, []⟩
      have hcheck : login.check (.success "code" protection.csrf) (some w)
          = .ok ("code", protection) :=
        login.check_eq_ok_iff.mpr ⟨rfl, w, rfl, hdecode⟩
      obtain ⟨tr', claims, hgen', hcompletes⟩ := login.exists_completes hcheck hmints
      have hshown := hcloses _ presented hperm (.success "code" protection.csrf) tr' _ session
        (by rw [hcookie]; exact login.returns_complete_iff.mpr hcompletes) hgen' rfl
      exact (Visit.presents_iff htimely hname).mp hshown
  · intro ⟨hnames, hothers⟩ ctx hscope hmethod tr location cookies hret hgen
    have hfor : c.loginFor ctx.request = some login := by
      unfold loginFor
      rw [if_pos hmethod, hlogin]
    obtain ⟨tr', redirect, hbegins, rfl⟩ := c.begins_of_authenticate hfor hgen hret
    have hname : login.session.name = AuthScope.sessionCookieName s :=
      hnames ⟨_, login.canBegin_iff.mpr ⟨tr', redirect, hbegins⟩⟩
    obtain ⟨state, pkce, csrf, nonce, value, hvalid, hpkce, hvalue⟩ := hbegins
    -- every redirect clears the session cookie of the flow
    refine ⟨⟨by simp, hname⟩, ?_⟩
    intro atCallback presented hperm callback tr'' done session hcomplete hgen' hdone
    obtain ⟨code, protection, session', hcheck, -, hmints, hdone'⟩ :=
      (login.returns_complete_iff.mp hcomplete).genuine hgen'
    obtain ⟨-, w, hcookie, hdecode⟩ := login.check_eq_ok_iff.mp hcheck
    have hsession : session' = session := by
      rw [hdone'] at hdone
      exact congrArg (·.value) (Option.some.inj hdone)
    rw [hdone', hsession]
    rw [hsession] at hmints
    exact (Visit.presents_iff htimely hname).mpr (hothers session ⟨_, pkce, csrf, nonce, value,
      hvalid, hpkce, hvalue, w, protection, Visit.presents_of_cookie hperm hcookie, hdecode, hmints⟩)

/-! ### A scope per organisation

Each organisation has a session cookie of its own name, and the login flow is built with the default
one. -/

/-- The realms of a service with organisations. -/
inductive Realm where
  | global
  | org (id : String)

instance : AuthScope Realm where
  display
    | .global => "user"
    | .org id => "org_" ++ id
  cacheDiscriminator
    | .global => none
    | .org id => some id

/-- A browser that follows a redirect at once, with cookies for every page. -/
def visitWith (jar : CookieJar) : Visit where
  jar := jar
  challengedAt := 0
  completedAt := 10
  nextAt := 20
  withinCallback := fun _ => true
  within := fun _ => true
  defaultPath := "/"

def bareFlow : LoginService := LoginService.bareLogin .json

/-- This browser comes back in time, and to a page its session belongs to. -/
theorem visitWith_timely (jar : CookieJar) : (visitWith jar).Timely bareFlow := by
  have horder : 10 ≤ 20 := by decide
  have hlasts : 20 < 10 + bareFlow.session.maxAge.asSecs := by decide
  exact ⟨horder, hlasts, rfl⟩

/-- A stale session, and a cookie of the application. -/
def staleJar : CookieJar :=
  CookieJar.receiveAll 0 ∅ [⟨bareFlow.session.id, "stale", some 60⟩, ⟨⟨"theme", none, "/"⟩, "dark", none⟩]

/-- Nothing but the stale session is shown under the session's name, and a login removes that. -/
theorem staleJar_other (now : ℕ) (page : CookieId → Bool) (w : String) :
    ¬ (visitWith staleJar).Untouched bareFlow now page "session" w := by
  rintro ⟨id, cookie, hlookup, -, -, hname, -, hsession, -⟩
  have htheme : id ≠ ⟨"theme", none, "/"⟩ := by
    rintro rfl
    exact absurd hname (by decide)
  rw [show (visitWith staleJar).jar = staleJar from rfl, staleJar, CookieJar.lookup_receiveAll_pair,
    if_neg htheme, if_neg hsession] at hlookup
  exact absurd hlookup (by simp)

/-- With a single scope and the default settings the loop is closed: the browser holds a stale
session, it is cleared, and what the login mints is what the next request presents. -/
theorem bareSession_closes : bareSession.ClosesLoop User bareFlow NoScope.noScope (visitWith staleJar)
    ∧ (visitWith staleJar).Mints bareFlow "a.b.c" := by
  refine ⟨(closes_iff rfl (visitWith_timely _)).mpr ⟨fun _ => rfl, fun session _ => ⟨?_, ?_⟩⟩, ?_⟩
  · intro hsame
    exact absurd hsame (by decide)
  · intro w hother
    exact absurd hother (staleJar_other _ _ w)
  · obtain ⟨value, hvalue⟩ := ProtectionSerde.lossless_json.encode
      (LoginService.protectionOf (some ("ch", "v")) "c" "n" "/config")
    refine ⟨"/config", some ("ch", "v"), "c", "n", value, by decide +kernel, rfl, hvalue, value, _,
      .inl ⟨by decide, rfl, by decide, by decide, rfl⟩,
      ProtectionData.decode_of_encode ProtectionSerde.lossless_json.roundTrips hvalue, ?_⟩
    exact ⟨"a.b.c", ⟨"a.b.c"⟩, ⟨"alice", 0, none, none, none, some "n", none⟩, rfl, rfl, rfl⟩

/-- **A login that never ends**: in an organisation's scope the session is read under another name
than the one it is set under, so the next request is redirected again. -/
theorem org_loops : ¬ bareSession.ClosesLoop User bareFlow (Realm.org "x") (visitWith ∅) := by
  intro h
  have hbegin : bareFlow.CanBegin "/config" :=
    ⟨by decide +kernel, some ("ch", "v"), "c", "n", _, rfl, by rfl⟩
  obtain ⟨tr, redirect, hbegins⟩ := bareFlow.canBegin_iff.mp hbegin
  obtain ⟨hgen, hret⟩ := navigation_redirected (c := bareSession) (U := User) (s := Realm.org "x") rfl
    hbegins
  have hname := (h _ rfl rfl tr _ _ hret hgen).1.2
  exact absurd hname (by decide)

end SessionService

end AuthnKit
