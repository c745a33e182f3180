import AuthnKit.Adapters.SetCookie
import AuthnKit.Foundation.Justified
import AuthnKit.Foundation.Refinement
import AuthnKit.Oidc.ProtectionCookie
import AuthnKit.Oidc.SingleUse

/-!
# AuthnKit — logins in a browser that reads texts

The runs of `browserMachine`, but for the responses: of those, the browser gets the `Set-Cookie`
texts, and stores what it reads there.

* **`CookieSettings.Wire`** — settings whose cookies can be written down.
* **`wire_of_point`** — every cookie the flow sets can.
* **`reachable_readMachine_iff`** — the two browsers have the same runs.
-/

namespace AuthnKit

open Interleave
open SetCookieText (Host Whole)

/-- How a cookie is stored. Dates do not occur. -/
def SetCookieText.Cookie.setCookie (defaultPath : String) (c : SetCookieText.Cookie) : SetCookie where
  id := ⟨c.name, c.domain, c.path.getD defaultPath⟩
  value := c.value
  maxAge := c.maxAge

def readCookies (cookies : List CookieDirective) : List SetCookieText.Cookie :=
  cookies.filterMap fun d => SetCookieText.parse d.display

/-- **A response whose cookies can be written down is read as it was meant**: what the browser
stores is what the directives say. -/
theorem readCookies_of_wire {cookies : List CookieDirective} (h : ∀ d ∈ cookies, d.Wire)
    (defaultPath : String) : (readCookies cookies).map (·.setCookie defaultPath)
      = cookies.map (·.received defaultPath) := by
  have hread : readCookies cookies = cookies.map CookieDirective.sent := by
    unfold readCookies
    rw [← List.filterMap_eq_map]
    apply List.filterMap_congr
    intro d hd
    exact CookieDirective.parse_display (h d hd)
  rw [hread, List.map_map]
  rfl

/-! ## Settings

Which settings can be written down is a condition on their texts: no semicolons in them, nothing to
trim, and a host name for a domain. -/

namespace CookieSettings

structure Wire (c : CookieSettings) : Prop where
  name : Whole c.name
  name_ne : c.name ≠ ""
  name_free : '=' ∉ c.name.toList
  domain : ∀ host, c.domain = some host → Host host
  path : Whole c.path ∧ Text.startsWith "/" c.path = true

variable {c : CookieSettings}

/-- A value that can be written down makes a directive that can. -/
theorem Wire.set (h : c.Wire) {value : String} (hvalue : Whole value) : (c.set value).Wire :=
  ⟨h.name, h.name_ne, h.name_free, hvalue, h.domain, fun _ hpath => Option.some.inj hpath ▸ h.path⟩

/-- The directive that clears the cookie can be written down as well. -/
theorem Wire.clear (h : c.Wire) : c.clear.Wire :=
  have hempty : Whole "" := by decide +kernel
  ⟨h.name, h.name_ne, h.name_free, hempty, h.domain, fun _ hpath => Option.some.inj hpath ▸ h.path⟩

theorem whole_of_visible {s : String}
    (h : ∀ c ∈ s.toList, c ≠ ';' ∧ Text.isWhitespace c = false) : Whole s := by
  apply SetCookieText.whole_of_forall
  intro c hc
  refine ⟨(h c hc).1, ?_⟩
  have hspace := (h c hc).2
  unfold SetCookieText.isWsp
  rw [Bool.or_eq_false_iff, beq_eq_false_iff_ne, beq_eq_false_iff_ne]
  constructor <;> (rintro rfl; exact absurd hspace (by decide))

/-- **The defaults** can be written down, under any token. -/
theorem wire_defaults {name : String} (h : CookieToken name) :
    (ofSession name).Wire ∧ (ofProtection name).Wire := by
  have hname : Whole name :=
    whole_of_visible fun c hc => ⟨(h.chars c hc).ne.1, (h.chars c hc).isWhitespace⟩
  have hfree : '=' ∉ name.toList := fun hmem => (h.chars '=' hmem).ne.2 rfl
  have hpath : Whole "/" ∧ Text.startsWith "/" "/" = true := by decide +kernel
  exact ⟨⟨hname, h.nonempty, hfree, fun _ hhost => absurd hhost nofun, hpath⟩,
    ⟨hname, h.nonempty, hfree, fun _ hhost => absurd hhost nofun, hpath⟩⟩

end CookieSettings

/-! ## The flow

The values a flow sets are its own encodings and the codec's sessions. They can be written down
where the settings can, and where that holds of the sessions. -/

namespace LoginService

variable {c : LoginService} {s : BrowserRun}

/-- The settings can be written down, and so can the session of any ID token. -/
structure WireCookies (c : LoginService) : Prop where
  session : c.session.Wire
  protection : c.protection.Wire
  value : ∀ token idToken expires value, c.lib.parseIdToken token = .ok idToken →
    c.codec.encode ⟨token, expires⟩ = .ok value → Whole value

/-- **Whatever the flow sets can be written down**: protection data are Base64, and a session is
that of a token the provider has verified. -/
theorem wire_of_point (h : c.WireCookies) {call : BrowserCall} {tr : BrowserTrace}
    {cookies : List CookieDirective} (hpoint : c.Point call tr (.receive cookies))
    (hgenuine : ∀ token nonce a, ⟨.login (.verifyIdToken token nonce), a⟩ ∈ tr →
      c.provider.Verifies token nonce a) : ∀ d ∈ cookies, d.Wire := by
  intro d hd
  cases hpoint with
  | redirect hbegins =>
    cases hbegins with
    | intro state pkce csrf nonce value hvalid hpkce hvalue =>
      have hwhole : Whole value := CookieSettings.whole_of_visible fun c hc =>
        ⟨(plain_of_encode hvalue c hc).ne.1, (plain_of_encode hvalue c hc).isWhitespace⟩
      simp only [List.mem_cons, List.not_mem_nil, or_false] at hd
      rcases hd with rfl | rfl
      · exact h.protection.set hwhole
      · exact h.session.clear
  | complete hquery hcompletes =>
    cases hcompletes with
    | intro code protection state response idToken claims value hcheck hendpoint hid hvalue =>
      -- the token was verified, so it is one
      have hverifies := hgenuine idToken.text (.matches protection.nonce) (.ok claims)
        (by simp [LoginTrace.inBrowser, Prog.renameTrace])
      obtain ⟨parsed, -, hparse, -⟩ := ProviderService.verifies_ok_iff.mp hverifies
      simp only [List.mem_cons, List.not_mem_nil, or_false] at hd
      rcases hd with rfl | rfl
      · exact h.session.set (h.value _ _ _ _ hparse hvalue)
      · exact h.protection.clear

/-! ## The browser

The browser of the runs is told the directives. One that reads the texts instead stores the same
cookies, so it has the same runs. -/

/-- What an operation answers, and the browser after it, where a response is its texts. -/
def reads (c : LoginService) (v : BrowserView) : (op : BrowserOp) → op.Answer → Browser → Prop
  | .receive cookies, _, b => ∃ defaultPath, b = ⟨CookieJar.receiveAll v.world.now v.world.jar
      ((readCookies cookies).map (·.setCookie defaultPath)), v.world.now⟩
  | op, a, b => c.performs v op a b

def readMachine (c : LoginService) :
    Machine BrowserCall BrowserOp BrowserOp.Answer Browser LoginResult :=
  { c.browserMachine with exec := fun _ v op a b => c.reads v op a b }

/-- A response is read as it was meant, in any browser that verifies what it delivers. -/
theorem reads_iff (h : c.WireCookies)
    {M : Machine BrowserCall BrowserOp BrowserOp.Answer Browser LoginResult}
    (hbody : M.body = c.browse)
    (hlogin : ∀ i v op a b, M.exec i v (.login op) a b → c.Genuine [⟨op, a⟩])
    (hs : Reachable M s) {i : ℕ} {r : BrowserCall} {op : BrowserOp}
    {k : op.Answer → BrowserProg LoginResult} (hi : s.tasks i = .running r (.call op k))
    (a : op.Answer) (b : Browser) : c.reads s.view op a b ↔ c.performs s.view op a b := by
  cases op with
  | deliver query => exact Iff.rfl
  | login op => exact Iff.rfl
  | receive cookies =>
    have hleads := hs.leads_running hi
    rw [hbody] at hleads
    have hwire := wire_of_point h (point_of_leads hleads) (by
      intro token nonce a hmem
      obtain ⟨e, he, -, hdid⟩ := View.mem_trace.mp hmem
      obtain ⟨past, hhappened⟩ := happened_of_mem he
      have hexec := hdid.elim (P := fun op a => M.exec e.task ⟨e.pre, past⟩ op a e.post)
        (hs.exec_of_happened hhappened)
      exact hlogin _ _ _ _ _ hexec token nonce a (List.mem_singleton.mpr rfl))
    unfold reads performs
    simp only [readCookies_of_wire hwire]

/-- **A browser that reads the texts is a browser that is told the cookies**: the same runs, where
the cookies can be written down. -/
theorem reachable_readMachine_iff (h : c.WireCookies) :
    Reachable c.readMachine s ↔ Reachable c.browserMachine s := by
  have hreads : ∀ i v op a b, c.readMachine.exec i v (.login op) a b → c.Genuine [⟨op, a⟩] :=
    fun _ _ _ _ _ hx => hx.2.2
  have htold : ∀ i v op a b, c.browserMachine.exec i v (.login op) a b → c.Genuine [⟨op, a⟩] :=
    fun _ _ _ _ _ hx => hx.2.2
  constructor
  · intro hs
    exact hs.withExec fun hs hi hx => (reads_iff h rfl hreads hs hi _ _).mp hx
  · intro hs
    exact hs.withExec fun hs hi hx => (reads_iff h rfl htold hs hi _ _).mpr hx

/-! ### An attempt begins

A flow whose sessions are encoded, and a browser that is redirected into it. -/

/-- A flow whose session cookies are written in Base64. -/
def encodedLogin : LoginService :=
  { adminLogin with
    codec := {
      encode := fun session => .ok (Base64.encode .urlSafe session.idToken.toUTF8.data.toList)
      decode := fun raw => .ok ⟨raw, none⟩ } }

/-- Its settings can be written down, and so can its sessions. -/
theorem encodedLogin_wireCookies : encodedLogin.WireCookies := by
  have htoken : ∀ name ∈ ["session", "authn_protection"], CookieToken name := by
    intro name hname
    refine ⟨?_, ?_⟩
    · rintro rfl
      exact absurd hname (by decide)
    · revert name
      decide +kernel
  constructor
  case session => exact (CookieSettings.wire_defaults (htoken "session" (by decide))).1
  case protection => exact (CookieSettings.wire_defaults (htoken "authn_protection" (by decide))).2
  case value =>
    intro token idToken expires value _ hvalue
    obtain rfl := Except.ok.inj hvalue
    exact CookieSettings.whole_of_visible fun c hc =>
      ⟨(plain_base64 c hc).ne.1, (plain_base64 c hc).isWhitespace⟩

theorem encodedLogin_begins : encodedLogin.Begins "/admin"
    (⟨.snapshot, adminState⟩ :: draws (some ("h1", "v1"))
      ++ [⟨.csrfNewRandom, "s1"⟩, ⟨.nonceNewRandom, "n1"⟩]) adminRedirect := by
  refine .intro adminState (some ("h1", "v1")) "s1" "n1" adminCookie (by decide) rfl ?_
  simp [protectionOf, ProtectionData.encode, encodedLogin, adminLogin, bareLogin, serdeOf, adminData,
    adminCookie]

/-- The browser reads the protection cookie of the attempt. -/
theorem encodedLogin_read : ∃ s : BrowserRun, Reachable encodedLogin.readMachine s
    ∧ s.view.world = adminBrowser
    ∧ s.Returned 0 (.authorize "/admin") (.ok (.redirect adminRedirect)) := by
  have h₀ : Reachable encodedLogin.browserMachine
      (⟨⟨⟨∅, 0⟩, []⟩, fun _ => .idle⟩ : BrowserRun) := by
    refine .init _ ?_
    intro id cookie protection hlookup
    exact absurd hlookup (by simp)
  obtain ⟨before, hplays, -⟩ := plays_adminBegins
  have hexec : ∀ v op a b, adminLogin.inTurnMachine.exec 0 v op a b →
      encodedLogin.browserMachine.exec 0 v op a b := by
    intro v op a b hx
    cases op <;> exact hx.1
  have hplays' := hplays.withExec hexec
  obtain ⟨s, hs, hview, hret, -⟩ := h₀.submit rfl
    (hplays'.alone (returns_browse_of_begins encodedLogin_begins))
  exact ⟨s, (reachable_readMachine_iff encodedLogin_wireCookies).mpr hs,
    congrArg View.world hview, hret⟩

end LoginService

end AuthnKit
