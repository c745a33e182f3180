import AuthnKit.Oidc.Browser
import AuthnKit.Oidc.LoginBinding

/-!
# AuthnKit — logins in one browser

Any number of login attempts and callbacks of one browser, interleaved at every effect. The
browser delivers whatever callbacks it likes, as often as it likes, each with the protection
cookie it then shows. It stores what a response sets when the response arrives. Any call may be
dropped anywhere: a request that is lost, a future that is dropped, a response that never arrives.

* **`browserMachine`** — those runs.
* **`Point`** — what a call has done by the time it performs an operation.
* **`held`** — the protection data a browser holds are those it received last.
-/

namespace AuthnKit

open Interleave

inductive BrowserCall where
  | authorize (destination : String)
  | callback (query : String)

inductive BrowserOp where
  /-- The browser delivers a callback, and shows its protection cookie. -/
  | deliver (query : String)
  | login (op : LoginOp)
  /-- The cookies of a response arrive. -/
  | receive (cookies : List CookieDirective)

abbrev BrowserOp.Answer : BrowserOp → Type
  | deliver _ => Option String
  | login op => op.Answer
  | receive _ => Unit

abbrev BrowserProg := Prog BrowserOp BrowserOp.Answer

abbrev BrowserTrace := List (Σ op : BrowserOp, op.Answer)

/-- What a call has done on the side of the login flow. -/
abbrev LoginTrace.inBrowser (tr : LoginTrace) : BrowserTrace :=
  Prog.renameTrace BrowserOp.login tr

structure Browser where
  jar : CookieJar
  now : ℕ

abbrev BrowserEvent := Event BrowserCall BrowserOp BrowserOp.Answer Browser

abbrev BrowserView := View BrowserCall BrowserOp BrowserOp.Answer Browser

abbrev BrowserRun := State BrowserCall BrowserOp BrowserOp.Answer Browser LoginResult

def LoginAnswer.cookies : LoginAnswer → List CookieDirective
  | redirect r => r.cookies
  | complete done => done.cookies

namespace LoginService

variable (c : LoginService)

/-- The response to a call. An error sets no cookie. -/
def respond : LoginResult → BrowserProg LoginResult
  | .ok answer => .call (.receive answer.cookies) fun _ => .ret (.ok answer)
  | .error e => .ret (.error e)

def browse : BrowserCall → BrowserProg LoginResult
  | .authorize destination => (c.body (.authorize destination)).rename BrowserOp.login >>= respond
  | .callback query => .call (.deliver query) fun cookie =>
      (c.body (.callback query cookie)).rename BrowserOp.login >>= respond

/-- What an operation answers, and the browser after it. Of several cookies of the name, the last
one shown counts. -/
def performs (v : BrowserView) : (op : BrowserOp) → op.Answer → Browser → Prop
  | .deliver _, cookie, b => b = v.world ∧ ∃ within sent,
      sent.Perm (v.world.jar.shown v.world.now within)
        ∧ Table.lastValue c.protection.name sent = cookie
  | .login op, a, b => b = v.world ∧ (IsDraw op → ∀ ev ∈ v.history, ¬ ev.Did (.login op) a)
      ∧ c.Genuine [⟨op, a⟩]
  | .receive cookies, _, b => ∃ defaultPath, b = ⟨CookieJar.receiveAll v.world.now v.world.jar
      (cookies.map (·.received defaultPath)), v.world.now⟩

/-- The runs begin with a browser that holds no protection data. -/
def browserMachine : Machine BrowserCall BrowserOp BrowserOp.Answer Browser LoginResult where
  body := c.browse
  init b := ∀ id cookie protection, b.jar.lookup id = some cookie → id.name = c.protection.name →
    ProtectionData.decode c.serde cookie.value ≠ .ok protection
  exec _ v op a b := c.performs v op a b
  abandon _ v _ b := b = v.world
  env b b' := b'.jar = b.jar ∧ b.now ≤ b'.now

variable {c} {s : BrowserRun}

/-! ## Where a call is

What a browser's call has done by the time it performs an operation. A response it receives has been
put together by then, so all there is to know about it is in the call's own trace. -/

/-- **What a call has done by the time it performs an operation.** -/
inductive Point (c : LoginService) : BrowserCall → BrowserTrace → BrowserOp → Prop where
  | attempt {destination : String} {tr : LoginTrace} {op : LoginOp}
      (hop : ∀ request, op ≠ .requestAsync request) :
      Point c (.authorize destination) tr.inBrowser (.login op)
  | redirect {destination : String} {tr : LoginTrace} {redirect : AuthorizationRedirect}
      (h : c.Begins destination tr redirect) :
      Point c (.authorize destination) tr.inBrowser (.receive redirect.cookies)
  | deliver {query : String} : Point c (.callback query) [] (.deliver query)
  | callback {query : String} {cookie : Option String} {callback : CallbackParams}
      {tr : LoginTrace} {op : LoginOp} (hquery : CallbackParams.fromQuery query = .ok callback)
      (h : c.Completing callback cookie tr op) :
      Point c (.callback query) (⟨.deliver query, cookie⟩ :: tr.inBrowser) (.login op)
  | complete {query : String} {cookie : Option String} {callback : CallbackParams}
      {tr : LoginTrace} {done : LoginComplete} (hquery : CallbackParams.fromQuery query = .ok callback)
      (h : c.Completes callback cookie tr done) :
      Point c (.callback query) (⟨.deliver query, cookie⟩ :: tr.inBrowser) (.receive done.cookies)

/-- A call on the flow and its response: the call is under way, or the response is, with the cookies
of the call's result. -/
theorem leads_respond {p : LoginProg LoginResult} {tr : BrowserTrace} {op : BrowserOp}
    {k : op.Answer → BrowserProg LoginResult}
    (h : Prog.Leads (p.rename BrowserOp.login >>= respond) tr (.call op k)) :
    ∃ tr' : LoginTrace, tr = tr'.inBrowser
      ∧ ((∃ op' k', op = .login op' ∧ Prog.Leads p tr' (.call op' k'))
        ∨ ∃ answer, op = .receive answer.cookies ∧ Prog.Returns p tr' (.ok answer)) := by
  have hresponse : ∀ result tr₂, Prog.Leads (respond result) tr₂ (.call op k) →
      tr₂ = [] ∧ ∃ answer, result = .ok answer ∧ op = .receive answer.cookies := by
    intro result tr₂ h₂
    cases result with
    | error e => cases (Prog.leads_ret_iff.mp h₂).2
    | ok answer =>
      rcases Prog.leads_call_iff.mp h₂ with ⟨rfl, hnext⟩ | ⟨u, tr₃, -, h₃⟩
      · cases hnext
        exact ⟨rfl, answer, rfl, rfl⟩
      · cases (Prog.leads_ret_iff.mp h₃).2
  rcases Prog.Leads.of_bind h with ⟨p', hp', hnext⟩ | ⟨tr₁, result, tr₂, rfl, h₁, h₂⟩
  · obtain ⟨tr', q, rfl, hq, rfl⟩ := Prog.leads_of_rename hp'
    refine ⟨tr', rfl, ?_⟩
    cases q with
    | ret result =>
      have hend : Prog.Leads (respond result) [] (.call op k) := by
        rw [hnext]
        exact .refl _
      obtain ⟨-, answer, rfl, hop⟩ := hresponse result [] hend
      exact .inr ⟨answer, hop, hq.returns⟩
    | call op' k' =>
      cases hnext
      exact .inl ⟨op', k', rfl, hq⟩
  · obtain ⟨rfl, answer, rfl, hop⟩ := hresponse result tr₂ h₂
    obtain ⟨tr', rfl, hret⟩ := Prog.returns_of_rename h₁
    exact ⟨tr', List.append_nil _, .inr ⟨answer, hop, hret⟩⟩

/-- A result that is only mapped is under way where the program is. -/
theorem leads_map {α β : Type} {p : LoginProg α} {f : α → β} {tr : LoginTrace} {op : LoginOp}
    {k : op.Answer → LoginProg β} (h : Prog.Leads (p >>= fun a => .ret (f a)) tr (.call op k)) :
    ∃ k', Prog.Leads p tr (.call op k') := by
  rcases Prog.Leads.of_bind h with ⟨p', hp', hnext⟩ | ⟨tr₁, a, tr₂, -, -, h₂⟩
  · cases p' with
    | ret a => cases hnext
    | call op' k' =>
      cases hnext
      exact ⟨k', hp'⟩
  · cases (Prog.leads_ret_iff.mp h₂).2

/-- Every operation of a call is performed at one of these points. -/
theorem point_of_leads {call : BrowserCall} {tr : BrowserTrace} {op : BrowserOp}
    {k : op.Answer → BrowserProg LoginResult} (h : Prog.Leads (c.browse call) tr (.call op k)) :
    c.Point call tr op := by
  cases call with
  | authorize destination =>
    obtain ⟨tr', rfl, ⟨op', k', rfl, hleads⟩ | ⟨answer, rfl, hret⟩⟩ := leads_respond h
    · obtain ⟨k'', hleads⟩ := leads_map hleads
      exact .attempt (c.authorize_never_exchanges hleads)
    · obtain ⟨redirect, rfl, hbegins⟩ := begins_of_returns hret
      exact .redirect hbegins
  | callback query =>
    rcases Prog.leads_call_iff.mp h with ⟨rfl, hnext⟩ | ⟨cookie, tr', rfl, h'⟩
    · cases hnext
      exact .deliver
    obtain ⟨tr', rfl, ⟨op', k', rfl, hleads⟩ | ⟨answer, rfl, hret⟩⟩ := leads_respond h'
    · unfold body at hleads
      cases hquery : CallbackParams.fromQuery query with
      | error e =>
        simp only [hquery] at hleads
        cases (Prog.leads_ret_iff.mp hleads).2
      | ok callback =>
        simp only [hquery] at hleads
        obtain ⟨k'', hleads⟩ := leads_map hleads
        exact .callback hquery (c.completing_of_leads hleads)
    · obtain ⟨callback, done, hquery, rfl, hcompletes⟩ := completes_of_returns hret
      exact .complete hquery hcompletes

/-- **Where the call of an event was when it happened.** From the events of a run it thus becomes
known what the call's own trace was. -/
theorem point_of_happened (hs : Reachable c.browserMachine s) {e : BrowserEvent}
    {past : List BrowserEvent} (he : Happened s.view.history e past) :
    c.Point e.req ((⟨e.pre, past⟩ : BrowserView).trace e.task) e.op := by
  obtain ⟨k, hleads⟩ := hs.leads_before he
  exact point_of_leads hleads

/-! ## What the browser holds

The jar may hold cookies of other origins and lifetimes. What is claimed of it is that any
protection data in it came with the last response. -/

def IsReceive : BrowserOp → Prop
  | .receive _ => True
  | _ => False

/-- The response to an attempt that sets the protection cookie to `value`. -/
def redirectCookies (c : LoginService) (value : String) : List CookieDirective :=
  [c.protection.set value, c.session.clear]

/-- The last response the browser received is that of an attempt, with this value. -/
def LastSet (c : LoginService) (history : List BrowserEvent) (value : String) : Prop :=
  ∃ later m past, history = later ++ m :: past ∧ (∀ e ∈ later, ¬ IsReceive e.op)
    ∧ m.Did (.receive (c.redirectCookies value)) ()

/-- An event that receives nothing leaves the last response what it was. -/
theorem LastSet.cons {history : List BrowserEvent} {value : String} (h : c.LastSet history value)
    {e : BrowserEvent} (he : ¬ IsReceive e.op) : c.LastSet (e :: history) value := by
  obtain ⟨later, m, past, rfl, hlater, hm⟩ := h
  refine ⟨e :: later, m, past, rfl, ?_, hm⟩
  intro e' he'
  rcases List.mem_cons.mp he' with rfl | hmem
  · exact he
  · exact hlater e' hmem

/-- Protection data that the browser holds lie in the protection cookie, and are the last thing it
received. -/
def Held (c : LoginService) (v : BrowserView) : Prop :=
  ∀ id cookie protection, v.world.jar.lookup id = some cookie → id.name = c.protection.name →
    ProtectionData.decode c.serde cookie.value = .ok protection →
    id = c.protection.id ∧ c.LastSet v.history cookie.value

/-- An event that leaves the cookies alone leaves what the browser holds. -/
theorem Held.after {v : BrowserView} (h : c.Held v) {e : BrowserEvent}
    (hjar : e.post.jar = v.world.jar) (he : ¬ IsReceive e.op) : c.Held (v.after e) := by
  intro id cookie protection hlookup hname hdecode
  rw [View.after_world, hjar] at hlookup
  obtain ⟨hid, hlast⟩ := h id cookie protection hlookup hname hdecode
  exact ⟨hid, hlast.cons he⟩

/-- **A redirect arrives**: its protection cookie replaces the one before it. -/
theorem Held.redirect (hnames : c.session.name ≠ c.protection.name) {v : BrowserView}
    (h : c.Held v) {e : BrowserEvent} {value defaultPath : String}
    (hdid : e.Did (.receive (c.redirectCookies value)) ())
    (hjar : e.post.jar = CookieJar.receiveAll v.world.now v.world.jar
      ((c.redirectCookies value).map (·.received defaultPath))) : c.Held (v.after e) := by
  intro id cookie protection hlookup hname hdecode
  rw [View.after_world, hjar] at hlookup
  unfold redirectCookies at hlookup
  simp only [List.map_cons, List.map_nil] at hlookup
  rw [CookieJar.lookup_receiveAll_pair, CookieSettings.id_received_clear,
    CookieSettings.id_received_set] at hlookup
  split at hlookup
  next hsession =>
    rw [hsession] at hname
    exact absurd hname hnames
  next =>
    split at hlookup
    next hid =>
      refine ⟨hid, [], e, v.history, rfl, by simp, ?_⟩
      rw [CookieJar.value_of_stored hlookup]
      exact hdid
    next hid => exact absurd (h id cookie protection hlookup hname hdecode).1 hid

/-- **A completed login arrives**: the browser holds no protection data after it. -/
theorem Held.complete (hnames : c.session.name ≠ c.protection.name) {v : BrowserView}
    (h : c.Held v) {e : BrowserEvent} {session defaultPath : String}
    (hjar : e.post.jar = CookieJar.receiveAll v.world.now v.world.jar
      ([c.session.set session, c.protection.clear].map (·.received defaultPath))) :
    c.Held (v.after e) := by
  intro id cookie protection hlookup hname hdecode
  rw [View.after_world, hjar] at hlookup
  simp only [List.map_cons, List.map_nil] at hlookup
  rw [CookieJar.lookup_receiveAll_pair, CookieSettings.id_received_clear,
    CookieSettings.id_received_set, CookieSettings.stored_clear] at hlookup
  split at hlookup
  next => exact absurd hlookup (by simp)
  next hid =>
    split at hlookup
    next hsession =>
      rw [hsession] at hname
      exact absurd hname hnames
    next => exact absurd (h id cookie protection hlookup hname hdecode).1 hid

/-- **The protection data a browser holds are those it received last.** Induction on the run; every
response is a redirect's, a completed login's, or one without cookies. -/
theorem held (hnames : c.session.name ≠ c.protection.name) (hs : Reachable c.browserMachine s) :
    c.Held s.view := by
  induction hs with
  | init b hb =>
    -- a browser starts without protection data of the flow
    intro id cookie protection hlookup hname hdecode
    exact absurd hdecode (hb id cookie protection hlookup hname)
  | @step s s' hs hstep ih =>
    cases hstep with
    | spawn i r hi => exact ih
    | abandon i hi w hx =>
      rw [show w = s.view.world from hx]
      exact ih
    | env w hx =>
      intro id cookie protection hlookup
      rw [View.withWorld_world, hx.1] at hlookup
      exact ih id cookie protection hlookup
    | @act i r op k hi a w hx =>
      -- only a response changes the cookies, and which response it is the call's own past says
      have hpoint : c.Point r (s.view.trace i) op := point_of_leads (hs.leads_running hi)
      cases op with
      | deliver query => exact ih.after (congrArg Browser.jar hx.1) id
      | login op => exact ih.after (congrArg Browser.jar hx.1) id
      | receive cookies =>
        obtain ⟨defaultPath, rfl⟩ := hx
        generalize s.view.trace i = tr at hpoint
        cases hpoint with
        | redirect hbegins =>
          cases hbegins with
          | intro => exact ih.redirect hnames rfl rfl
        | complete hquery hcompletes =>
          cases hcompletes with
          | intro => exact ih.complete hnames rfl

end LoginService

end AuthnKit
