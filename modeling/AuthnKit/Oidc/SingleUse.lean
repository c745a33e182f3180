import AuthnKit.Oidc.BrowserRuns

/-!
# AuthnKit — how often protection data is used

A login that completes clears the protection cookie; one that fails after its code went to the
token endpoint leaves it, and so does a response that never arrives.

* **`single_use`** — one exchange for each value, in every run whose callbacks are `InTurn`.
* **`exchanged_twice`** — an exchange that fails, and the same callback once more.
-/

namespace AuthnKit

open Interleave

namespace LoginService

variable {c : LoginService} {s : BrowserRun}

/-- The call of `e` was delivered with this protection value, and `e` exchanges its code. -/
def Exchanges (history : List BrowserEvent) (value : String) (e : BrowserEvent) : Prop :=
  (∃ request, e.op = .login (.requestAsync request))
    ∧ ∃ delivery ∈ history, delivery.task = e.task
      ∧ ∃ query, delivery.Did (.deliver query) (some value)

/-- **Protection data is single-use**: of two exchanges no later one has the value of an earlier
one. -/
def SingleUse (history : List BrowserEvent) : Prop :=
  ∀ value e past, Happened history e past → Exchanges history value e →
    ∀ e' ∈ past, ¬ Exchanges history value e'

/-- The callback passes the checks of `complete` with this value. -/
def Admits (c : LoginService) (query value : String) : Prop :=
  ∃ callback admitted, CallbackParams.fromQuery query = .ok callback
    ∧ c.check callback (some value) = .ok admitted

/-- The callback of task `i` found no token endpoint, or its response has arrived. -/
def Over (history : List BrowserEvent) (i : ℕ) : Prop :=
  (∃ e ∈ history, e.task = i ∧ ∃ state : ProviderState,
      state.client.metadata.tokenEndpoint = none ∧ e.Did (.login .snapshot) state)
    ∨ ∃ e ∈ history, e.task = i ∧ ∃ cookies, e.Did (.receive cookies) ()

/-- **One after the other**: a callback that is admitted is delivered only once every earlier one
that was admitted with the same value is over. -/
def InTurn (c : LoginService) (_ : ℕ) (v : BrowserView) (op : BrowserOp) (a : op.Answer)
    (_ : Browser) : Prop :=
  ∀ query value, (⟨op, a⟩ : Σ op : BrowserOp, op.Answer) = ⟨.deliver query, some value⟩ →
    c.Admits query value →
    ∀ e ∈ v.history, ∀ query', e.Did (.deliver query') (some value) → c.Admits query' value →
      Over v.history e.task

def inTurnMachine (c : LoginService) :
    Machine BrowserCall BrowserOp BrowserOp.Answer Browser LoginResult :=
  c.browserMachine.restrict c.InTurn (fun _ _ _ _ => True) (fun _ _ => True)

/-! ## One task

A callback's own trace, as far as it goes: it is delivered, reads the snapshot, exchanges the code,
and its response arrives. Each lemma has one event and says what lies before it. -/

/-- What a task did before an event is the beginning of what it has done. -/
theorem trace_of_happened {e : BrowserEvent} {past : List BrowserEvent}
    (he : Happened s.view.history e past) : ∃ rest, s.view.trace e.task
      = (⟨e.pre, past⟩ : BrowserView).trace e.task ++ ⟨e.op, e.ans⟩ :: rest := by
  obtain ⟨later, -, htrace⟩ := View.trace_split he rfl
  exact ⟨_, htrace⟩

theorem trace_of_deliver (hs : Reachable c.browserMachine s) {d : BrowserEvent}
    (hd : d ∈ s.view.history) {query : String} {cookie : Option String}
    (hdid : d.Did (.deliver query) cookie) :
    d.req = .callback query ∧ ∃ rest, s.view.trace d.task = ⟨.deliver query, cookie⟩ :: rest := by
  obtain ⟨past, hd⟩ := happened_of_mem hd
  obtain ⟨rest, htrace⟩ := trace_of_happened hd
  rw [htrace]
  have hpoint := point_of_happened hs hd
  obtain ⟨task, req, op, ans, pre, post⟩ := d
  cases hdid
  generalize (⟨pre, past⟩ : BrowserView).trace task = before at hpoint
  cases hpoint
  exact ⟨rfl, rest, rfl⟩

section Delivered

variable (hs : Reachable c.browserMachine s) {d : BrowserEvent} (hd : d ∈ s.view.history)
  {query value : String} (hdid : d.Did (.deliver query) (some value))

include hs hd hdid

/-- Where a delivered callback was at one of its events, and that this is how it began. -/
theorem point_of_delivered {e : BrowserEvent} {past : List BrowserEvent}
    (he : Happened s.view.history e past) (htask : e.task = d.task) :
    c.Point (.callback query) ((⟨e.pre, past⟩ : BrowserView).trace d.task) e.op
      ∧ ∃ rest rest', (⟨.deliver query, some value⟩ :: rest' : BrowserTrace)
          = (⟨e.pre, past⟩ : BrowserView).trace d.task ++ ⟨e.op, e.ans⟩ :: rest
        ∧ s.view.trace d.task = ⟨.deliver query, some value⟩ :: rest' := by
  obtain ⟨hreq, rest', hfirst⟩ := trace_of_deliver hs hd hdid
  obtain ⟨rest, htrace⟩ := trace_of_happened he
  have hpoint := point_of_happened hs he
  have hsubmitted := hs.submitted e he.mem
  rw [htask] at htrace hpoint hsubmitted
  rw [hsubmitted.unique (hs.submitted d hd), hreq] at hpoint
  rw [hfirst] at htrace
  exact ⟨hpoint, rest, rest', htrace, hfirst⟩

/-- A snapshot comes second. -/
theorem trace_of_snapshot {e : BrowserEvent} (he : e ∈ s.view.history) (htask : e.task = d.task)
    {state : ProviderState} (hsnapshot : e.Did (.login .snapshot) state) :
    ∃ rest, s.view.trace d.task
      = ⟨.deliver query, some value⟩ :: ⟨.login .snapshot, state⟩ :: rest := by
  obtain ⟨past, he⟩ := happened_of_mem he
  obtain ⟨hpoint, rest, rest', htrace, hfirst⟩ := point_of_delivered hs hd hdid he htask
  generalize (⟨e.pre, past⟩ : BrowserView).trace d.task = before at hpoint htrace
  obtain ⟨task, req, op, ans, pre, post⟩ := e
  cases hsnapshot
  cases hpoint with
  | callback hquery h =>
    cases h with
    | snapshot =>
      refine ⟨rest, ?_⟩
      rw [hfirst, (List.cons.inj htrace).2]
      rfl

/-- An exchange comes third: the callback is admitted, and the snapshot has a token endpoint. -/
theorem trace_of_exchange {e : BrowserEvent} {past : List BrowserEvent}
    (he : Happened s.view.history e past) (htask : e.task = d.task) {request : TokenRequest}
    (hexchange : e.op = .login (.requestAsync request)) :
    ∃ state : ProviderState, (⟨e.pre, past⟩ : BrowserView).trace d.task
        = [⟨.deliver query, some value⟩, ⟨.login .snapshot, state⟩]
      ∧ c.Admits query value ∧ state.client.metadata.tokenEndpoint.isSome := by
  obtain ⟨hpoint, rest, rest', htrace, -⟩ := point_of_delivered hs hd hdid he htask
  rw [hexchange] at hpoint
  generalize (⟨e.pre, past⟩ : BrowserView).trace d.task = before at hpoint htrace
  cases hpoint with
  | callback hquery h =>
    cases h with
    | exchange hcheck hendpoint =>
      cases (List.cons.inj htrace).1
      exact ⟨_, rfl, ⟨_, _, hquery, hcheck⟩, hendpoint⟩

/-- A response follows the delivery, and clears the protection cookie. -/
theorem response_of_delivered {e : BrowserEvent} {past : List BrowserEvent}
    (he : Happened s.view.history e past) (htask : e.task = d.task)
    {cookies : List CookieDirective} (hresponse : e.Did (.receive cookies) ()) :
    (∃ session, cookies = [c.session.set session, c.protection.clear])
      ∧ ∃ d' ∈ past, d'.Did (.deliver query) (some value) := by
  obtain ⟨hpoint, rest, rest', htrace, -⟩ := point_of_delivered hs hd hdid he htask
  have hbefore : ∀ x ∈ (⟨e.pre, past⟩ : BrowserView).trace d.task, ∃ e' ∈ past, e'.Did x.1 x.2 := by
    intro x hx
    obtain ⟨e', he', -, hdid'⟩ := View.mem_trace.mp hx
    exact ⟨e', he', hdid'⟩
  generalize (⟨e.pre, past⟩ : BrowserView).trace d.task = before at hpoint htrace hbefore
  obtain ⟨task, req, op, ans, pre, post⟩ := e
  cases hresponse
  cases hpoint with
  | complete hquery h =>
    cases (List.cons.inj htrace).1
    refine ⟨?_, hbefore _ List.mem_cons_self⟩
    cases h with
    | intro code protection state response idToken claims session => exact ⟨session, rfl⟩

end Delivered

/-! ## One value

A value is drawn by one attempt and set by one response. The browser shows it until the response of
a completed login clears it. -/

/-- What an attempt had done when the browser received its value: only draws, and among them a nonce
that the value carries. -/
theorem nonce_of_set (hnames : c.session.name ≠ c.protection.name)
    (hs : Reachable c.browserMachine s) {m : BrowserEvent} {past : List BrowserEvent}
    (hm : Happened s.view.history m past) {value : String} {protection : ProtectionData}
    (hdid : m.Did (.receive (c.redirectCookies value)) ()) (hserde : c.serde.RoundTrips)
    (hdecode : ProtectionData.decode c.serde value = .ok protection) :
    (∃ tr : LoginTrace, (⟨m.pre, past⟩ : BrowserView).trace m.task = tr.inBrowser)
      ∧ ⟨.login .nonceNewRandom, protection.nonce⟩ ∈ s.view.trace m.task := by
  obtain ⟨rest, htrace⟩ := trace_of_happened hm
  rw [htrace]
  have hpoint := point_of_happened hs hm
  generalize (⟨m.pre, past⟩ : BrowserView).trace m.task = before at hpoint
  have hop : m.op = .receive (c.redirectCookies value) := congrArg Sigma.fst hdid
  rw [hop] at hpoint
  generalize hcookies : c.redirectCookies value = cookies at hpoint
  generalize m.req = call at hpoint
  cases hpoint with
  | @redirect destination tr redirect h =>
    refine ⟨⟨tr, rfl⟩, ?_⟩
    cases h with
    | intro state pkce csrf nonce value' hvalid hpkce hvalue =>
      have hsame : value = value' := congrArg CookieDirective.value (List.cons.inj hcookies).1
      rw [hsame, ProtectionData.decode_of_encode hserde hvalue] at hdecode
      rw [← Except.ok.inj hdecode]
      apply List.mem_append_left
      exact List.mem_map.mpr ⟨⟨.nonceNewRandom, nonce⟩, by simp, rfl⟩
  | complete hquery h =>
    cases h with
    | intro => exact absurd (congrArg CookieDirective.name (List.cons.inj hcookies).1).symm hnames

/-- **A value is set once**: two responses that set it would be of attempts that share a nonce. -/
theorem set_once (hnames : c.session.name ≠ c.protection.name) (hserde : c.serde.RoundTrips)
    (hs : Reachable c.browserMachine s) {m m' : BrowserEvent} {past : List BrowserEvent}
    (hm : Happened s.view.history m past) (hm' : m' ∈ past) {value : String}
    {protection : ProtectionData} (hdecode : ProtectionData.decode c.serde value = .ok protection)
    (hdid : m.Did (.receive (c.redirectCookies value)) ()) :
    ¬ m'.Did (.receive (c.redirectCookies value)) () := by
  intro hdid'
  obtain ⟨past', hm''⟩ := happened_of_mem (hm.past_mem hm')
  obtain ⟨⟨tr, htrace⟩, hnonce⟩ := nonce_of_set hnames hs hm hdid hserde hdecode
  have hnonce' := (nonce_of_set hnames hs hm'' hdid' hserde hdecode).2
  have hfresh : ∀ i v w,
      c.browserMachine.exec i v (.login .nonceNewRandom) protection.nonce w →
      ∀ e ∈ v.history, ¬ e.Did (.login .nonceNewRandom) protection.nonce :=
    fun _ _ _ hx => hx.2.1 trivial
  have htask : m'.task = m.task := hs.task_unique hfresh hnonce hnonce'
  -- the attempt has received nothing before
  have hmem : ⟨.receive (c.redirectCookies value), ()⟩ ∈ (⟨m.pre, past⟩ : BrowserView).trace m.task :=
    View.mem_trace.mpr ⟨m', hm', htask, hdid'⟩
  rw [htrace] at hmem
  obtain ⟨x, -, hx⟩ := List.mem_map.mp hmem
  cases hx

/-- What the browser showed is what it received last. -/
theorem lastSet_of_shown (hnames : c.session.name ≠ c.protection.name)
    (hs : Reachable c.browserMachine s) {d : BrowserEvent} {past : List BrowserEvent}
    (hd : Happened s.view.history d past) {query value : String}
    (hdid : d.Did (.deliver query) (some value)) {protection : ProtectionData}
    (hdecode : ProtectionData.decode c.serde value = .ok protection) : c.LastSet past value := by
  obtain ⟨s', k, hs', hview, -, hx⟩ := hs.before hd
  have hheld := held hnames hs'
  rw [hview] at hheld
  obtain ⟨task, req, op, ans, pre, post⟩ := d
  cases hdid
  obtain ⟨-, within, sent, hsent, hvalue⟩ := hx
  have hshown : (c.protection.name, value) ∈ pre.jar.shown pre.now within :=
    hsent.mem_iff.mp (Table.mem_of_lastValue hvalue)
  obtain ⟨id, cookie, hlookup, -, -, hname, rfl⟩ := CookieJar.mem_shown.mp hshown
  exact (hheld id cookie protection hlookup hname hdecode).2

/-- **A value whose login has completed is not shown again.** What the browser shows it received
last, from the attempt that set it; but that attempt's response came before the one that cleared the
cookie, and comes only once. -/
theorem not_shown_again (hnames : c.session.name ≠ c.protection.name) (hserde : c.serde.RoundTrips)
    (hs : Reachable c.browserMachine s) {value query' : String} {d d' x : BrowserEvent}
    {past : List BrowserEvent} (hd : Happened s.view.history d past) (hd' : d' ∈ past)
    (hdid' : d'.Did (.deliver query') (some value)) (hx : x ∈ past) (htask : x.task = d'.task)
    {cookies : List CookieDirective} (hresponse : x.Did (.receive cookies) ())
    {protection : ProtectionData} (hdecode : ProtectionData.decode c.serde value = .ok protection)
    (query : String) : ¬ d.Did (.deliver query) (some value) := by
  intro hdid
  have hmem' : d' ∈ s.view.history := hd.past_mem hd'
  obtain ⟨later, m, pastm, rfl, hlater, hm⟩ := lastSet_of_shown hnames hs hd hdid hdecode
  have hmhappened : Happened s.view.history m pastm := hd.trans ⟨later, rfl⟩
  have hxm : x = m ∨ x ∈ pastm := by
    rcases List.mem_append.mp hx with hmem | hmem
    · have hreceive : IsReceive x.op := by
        rw [show x.op = .receive cookies from congrArg Sigma.fst hresponse]
        trivial
      exact absurd hreceive (hlater x hmem)
    · exact List.mem_cons.mp hmem
  rcases hxm with rfl | hxpast
  · -- the completed login clears the cookie, it does not set it
    obtain ⟨⟨session, hcookies⟩, -⟩ := response_of_delivered hs hmem' hdid' hmhappened htask hm
    exact hnames (congrArg CookieDirective.name (List.cons.inj hcookies).1).symm
  · -- it came after a delivery of the value, so the value had been set before that
    obtain ⟨pastx, hxhappened⟩ := happened_of_mem hxpast
    obtain ⟨-, d'', hd'', hdid''⟩ := response_of_delivered hs hmem' hdid'
      (hmhappened.trans hxhappened) htask hresponse
    obtain ⟨pastd, hdhappened⟩ := happened_of_mem hd''
    have hdpast : Happened pastm d'' pastd := hxhappened.trans hdhappened
    obtain ⟨later', m', pastm', rfl, -, hm'⟩ :=
      lastSet_of_shown hnames hs (hmhappened.trans hdpast) hdid'' hdecode
    have hearlier : m' ∈ pastm :=
      hdpast.past_mem (List.mem_append_right later' List.mem_cons_self)
    exact set_once hnames hserde hs hmhappened hearlier hdecode hm hm'

/-! ## One exchange

Two exchanges of one value would need two callbacks that are admitted with it, and the second one is
delivered after the first is over. -/

/-- **In turn, a value that was exchanged is not admitted again**: when the later callback is
delivered, the earlier one is over, and since it had an endpoint its response has arrived. -/
theorem not_admitted_again (hnames : c.session.name ≠ c.protection.name)
    (hserde : c.serde.RoundTrips) (hs : Reachable c.inTurnMachine s) {value query query' : String}
    {d d' : BrowserEvent} {past : List BrowserEvent} (hd : Happened s.view.history d past)
    (hd' : d' ∈ past) (hdid : d.Did (.deliver query) (some value))
    (hdid' : d'.Did (.deliver query') (some value)) {e' : BrowserEvent}
    (he' : e' ∈ s.view.history) (htask' : e'.task = d'.task) {request : TokenRequest}
    (hexchange : e'.op = .login (.requestAsync request)) : ¬ c.Admits query value := by
  intro hadmits
  have hrun : Reachable c.browserMachine s := hs.of_restrict
  have hmem' : d' ∈ s.view.history := hd.past_mem hd'
  obtain ⟨past', he'⟩ := happened_of_mem he'
  obtain ⟨state', hbefore, hadmits', hendpoint⟩ :=
    trace_of_exchange hrun hmem' hdid' he' htask' hexchange
  have hover : Over past d'.task :=
    hs.restrict_ok hd query value hdid hadmits d' hd' query' hdid' hadmits'
  rcases hover with ⟨x, hx, htask, state, hnone, hsnapshot⟩ | ⟨x, hx, htask, cookies, hresponse⟩
  · -- the snapshot is the one before the exchange
    obtain ⟨rest, htrace⟩ := trace_of_snapshot hrun hmem' hdid' (hd.past_mem hx) htask hsnapshot
    obtain ⟨rest', htrace'⟩ := trace_of_happened he'
    rw [htask', hbefore, htrace] at htrace'
    cases (List.cons.inj (List.cons.inj htrace').2).1
    rw [hnone] at hendpoint
    cases hendpoint
  · obtain ⟨callback, ⟨code, protection⟩, -, hcheck⟩ := hadmits
    obtain ⟨-, raw, hraw, hdecode⟩ := c.check_eq_ok_iff.mp hcheck
    obtain rfl := Option.some.inj hraw
    exact not_shown_again hnames hserde hrun hd hd' hdid' hx htask hresponse hdecode query hdid

/-- **Protection data is single-use where callbacks are delivered in turn**, in every run of a
browser with any number of attempts and callbacks. -/
theorem single_use (hnames : c.session.name ≠ c.protection.name) (hserde : c.serde.RoundTrips)
    (hs : Reachable c.inTurnMachine s) : SingleUse s.view.history := by
  have hrun : Reachable c.browserMachine s := hs.of_restrict
  intro value e past he hex e' he' hex'
  obtain ⟨⟨request, hop⟩, d, hd, htask, query, hdid⟩ := hex
  obtain ⟨⟨request', hop'⟩, d', hd', htask', query', hdid'⟩ := hex'
  obtain ⟨state, hbefore, hadmits, -⟩ := trace_of_exchange hrun hd hdid he htask.symm hop
  obtain ⟨past', hehappened⟩ := happened_of_mem (he.past_mem he')
  obtain ⟨-, -, hadmits', -⟩ := trace_of_exchange hrun hd' hdid' hehappened htask'.symm hop'
  by_cases hsame : d' = d
  · -- one callback: it exchanges nothing before
    have hmem : ⟨e'.op, e'.ans⟩ ∈ (⟨e.pre, past⟩ : BrowserView).trace d.task :=
      View.mem_trace.mpr ⟨e', he', by rw [← htask', hsame], rfl⟩
    rw [hbefore] at hmem
    have hops := List.mem_map_of_mem (f := Sigma.fst) hmem
    rw [show (⟨e'.op, e'.ans⟩ : Σ op : BrowserOp, op.Answer).1 = _ from hop'] at hops
    simp at hops
  · rcases happened_total hd hd' hsame with ⟨pastd, hdlater, hmem⟩ | ⟨pastd, hdlater, hmem⟩
    · exact not_admitted_again hnames hserde hs hdlater hmem hdid hdid' (he.past_mem he')
        htask'.symm hop' hadmits
    · exact not_admitted_again hnames hserde hs hdlater hmem hdid' hdid he.mem htask.symm hop
        hadmits'

/-! ### A callback, twice

The token endpoint cannot be reached, so the first callback ends in an error and leaves the cookie.
-/

/-- An attempt in the browser: what the flow does, and then the response. -/
theorem returns_browse_of_begins {destination : String} {tr : LoginTrace}
    {redirect : AuthorizationRedirect} (h : c.Begins destination tr redirect) :
    Prog.Returns (c.browse (.authorize destination))
      (tr.inBrowser ++ [⟨.receive redirect.cookies, ()⟩]) (.ok (.redirect redirect)) :=
  Prog.returns_bind_iff.mpr ⟨_, .ok (.redirect redirect), _, rfl,
    (returns_body_of_begins h).rename BrowserOp.login, .call (.ret _)⟩

/-- A callback in the browser that fails: no response with cookies arrives. -/
theorem returns_browse_of_error {query : String} {cookie : Option String} {tr : LoginTrace}
    {e : AuthError} (h : Prog.Returns (c.body (.callback query cookie)) tr (.error e)) :
    Prog.Returns (c.browse (.callback query)) (⟨.deliver query, cookie⟩ :: tr.inBrowser)
      (.error e) := by
  refine .call ?_
  exact Prog.returns_bind_iff.mpr
    ⟨_, .error e, [], (List.append_nil _).symm, h.rename BrowserOp.login, .ret _⟩

/-- The token endpoint cannot be reached. -/
def adminFailure : LoginTrace :=
  [⟨.snapshot, adminState⟩,
    ⟨.requestAsync (tokenRequestOf adminState "x" adminData), .error (.request "timed out")⟩]

theorem returns_adminFailure : Prog.Returns
    (adminLogin.body (.callback "code=x&state=s1" (some adminCookie))) adminFailure
    (.error (RequestTokenError.request "timed out").toAuthError) := by
  unfold body
  simp only [fromQuery_admin]
  refine Prog.returns_bind_iff.mpr
    ⟨adminFailure, .error (RequestTokenError.request "timed out").toAuthError, [], rfl, ?_, .ret _⟩
  rw [run_complete, check_admin]
  exact .call (.call (.ret _))

/-- What task `i` does when the callback is delivered. -/
def adminFailed (i : ℕ) (b : Browser) : List BrowserEvent :=
  [⟨i, .callback "code=x&state=s1",
      .login (.requestAsync (tokenRequestOf adminState "x" adminData)), .error (.request "timed out"), b, b⟩,
    ⟨i, .callback "code=x&state=s1", .login .snapshot, adminState, b, b⟩,
    ⟨i, .callback "code=x&state=s1", .deliver "code=x&state=s1", some adminCookie, b, b⟩]

def adminBrowser : Browser :=
  ⟨CookieJar.receiveAll 0 ∅ ((adminLogin.redirectCookies adminCookie).map (·.received "/")), 0⟩

theorem adminFailed_exchanges (i : ℕ) (history : List BrowserEvent)
    (h : ∀ e ∈ adminFailed i adminBrowser, e ∈ history) :
    ∃ e past, adminFailed i adminBrowser = e :: past ∧ Exchanges history adminCookie e := by
  refine ⟨_, _, rfl, ⟨_, rfl⟩, ⟨i, .callback "code=x&state=s1", .deliver "code=x&state=s1",
    some adminCookie, adminBrowser, adminBrowser⟩, h _ ?_, rfl, "code=x&state=s1", rfl⟩
  simp [adminFailed]

theorem genuine_singleton {op : LoginOp} {a : op.Answer}
    (hop : ∀ token nonce, op ≠ .verifyIdToken token nonce) : adminLogin.Genuine [⟨op, a⟩] := by
  intro token nonce a' hmem
  cases List.mem_singleton.mp hmem
  exact absurd rfl (hop token nonce)

/-- A callback that the browser delivers with the cookie of the attempt, where the machine lets it
be delivered and goes on as the flow does. -/
theorem plays_adminFailed
    {M : Machine BrowserCall BrowserOp BrowserOp.Answer Browser LoginResult} {i : ℕ}
    {history : List BrowserEvent}
    (hdeliver : M.exec i ⟨adminBrowser, history⟩ (.deliver "code=x&state=s1") (some adminCookie)
      adminBrowser)
    (hlogin : ∀ v op a, ¬ IsDraw op → adminLogin.Genuine [⟨op, a⟩] →
      M.exec i v (.login op) a v.world) :
    Plays M i (.callback "code=x&state=s1") ⟨adminBrowser, history⟩
      (⟨.deliver "code=x&state=s1", some adminCookie⟩ :: adminFailure.inBrowser)
      ⟨adminBrowser, adminFailed i adminBrowser ++ history⟩ := by
  exact .cons _ hdeliver (.cons _ (hlogin _ _ _ id (genuine_singleton nofun))
    (.cons _ (hlogin _ _ _ id (genuine_singleton nofun)) (.nil _)))

theorem performs_deliver {history : List BrowserEvent} :
    adminLogin.performs ⟨adminBrowser, history⟩ (.deliver "code=x&state=s1") (some adminCookie)
      adminBrowser :=
  ⟨rfl, fun _ => true, _, List.Perm.refl _, rfl⟩

theorem inTurn_of_ne {i : ℕ} {v : BrowserView} {op : BrowserOp} {a : op.Answer} {b : Browser}
    (hop : ∀ query, op ≠ .deliver query) : adminLogin.InTurn i v op a b :=
  fun query _ hdid => absurd (congrArg Sigma.fst hdid) (hop query)

/-- An operation of the flow is one of the machine, if its answer is fresh where it has to be. -/
theorem exec_login {i : ℕ} {v : BrowserView} {op : LoginOp} {a : op.Answer}
    (hfresh : IsDraw op → ∀ ev ∈ v.history, ¬ ev.Did (.login op) a)
    (hgenuine : adminLogin.Genuine [⟨op, a⟩]) :
    adminLogin.inTurnMachine.exec i v (.login op) a v.world :=
  ⟨⟨rfl, hfresh, hgenuine⟩, inTurn_of_ne fun _ h => nomatch h⟩

/-- The attempt, in a browser without cookies: the redirect arrives, and nothing is delivered. -/
theorem plays_adminBegins : ∃ before,
    Plays adminLogin.inTurnMachine 0 (.authorize "/admin") ⟨⟨∅, 0⟩, []⟩
      ((⟨.snapshot, adminState⟩ :: draws (some ("h1", "v1"))
          ++ [⟨.csrfNewRandom, "s1"⟩, ⟨.nonceNewRandom, "n1"⟩] : LoginTrace).inBrowser
        ++ [⟨.receive adminRedirect.cookies, ()⟩]) ⟨adminBrowser, before⟩
      ∧ ∀ e ∈ before, ∀ query, e.op ≠ .deliver query := by
  have hreceive : ∀ history, adminLogin.inTurnMachine.exec 0 ⟨⟨∅, 0⟩, history⟩
      (.receive adminRedirect.cookies) () adminBrowser :=
    fun history => ⟨⟨"/", rfl⟩, inTurn_of_ne fun _ h => nomatch h⟩
  refine ⟨_, .cons _ (exec_login (fun h => h.elim) (genuine_singleton nofun))
    (.cons _ (exec_login (fun h => h.elim) (genuine_singleton nofun))
    (.cons _ (exec_login ?_ (genuine_singleton nofun))
    (.cons _ (exec_login ?_ (genuine_singleton nofun))
    (.cons _ (hreceive _) (.nil _))))), ?_⟩
  · intro _ ev hev hdid
    simp only [View.after_history, List.mem_cons, List.not_mem_nil, or_false] at hev
    rcases hev with rfl | rfl
    · cases hdid
    · cases hdid
  · intro _ ev hev hdid
    simp only [View.after_history, List.mem_cons, List.not_mem_nil, or_false] at hev
    rcases hev with rfl | rfl | rfl
    · cases hdid
    · cases hdid
    · cases hdid
  · intro ev hev query hop
    simp only [View.after_history, List.mem_cons, List.not_mem_nil, or_false] at hev
    rcases hev with rfl | rfl | rfl | rfl | rfl
    all_goals cases hop

/-- The attempt begins, and its callback fails at the token endpoint: both in turn. -/
theorem exists_adminFailed : ∃ (s : BrowserRun) (before : List BrowserEvent),
    Reachable adminLogin.inTurnMachine s ∧ s.tasks 2 = .idle
      ∧ s.view = ⟨adminBrowser, adminFailed 1 adminBrowser ++ before⟩ := by
  have h₀ : Reachable adminLogin.inTurnMachine (⟨⟨⟨∅, 0⟩, []⟩, fun _ => .idle⟩ : BrowserRun) := by
    refine .init _ ?_
    intro id cookie protection hlookup
    exact absurd hlookup (by simp)
  obtain ⟨before, hplays, hnone⟩ := plays_adminBegins
  obtain ⟨s₁, hs₁, hview₁, -, hframe₁⟩ := h₀.submit rfl
    (hplays.alone (returns_browse_of_begins adminLogin_begins))
  -- the callback: nothing was delivered before it
  have hturn : adminLogin.InTurn 1 ⟨adminBrowser, before⟩ (.deliver "code=x&state=s1")
      (some adminCookie) adminBrowser := by
    intro query value _ _ e he query' hdid
    exact absurd (congrArg Sigma.fst hdid) (hnone e he query')
  have hfails := plays_adminFailed (M := adminLogin.inTurnMachine) (i := 1) ⟨performs_deliver, hturn⟩
    (fun v op a hdraw hgenuine => exec_login (fun h => absurd h hdraw) hgenuine)
  rw [← hview₁] at hfails
  obtain ⟨s, hs, hview, -, hframe⟩ := hs₁.submit (hframe₁ 1 (by decide))
    (hfails.alone (returns_browse_of_error returns_adminFailure))
  refine ⟨s, before, hs, ?_, hview⟩
  rw [hframe 2 (by decide), hframe₁ 2 (by decide)]

/-- One exchange, in turn. -/
theorem adminLogin_single_use : ∃ s : BrowserRun, Reachable adminLogin.inTurnMachine s
    ∧ (∃ e ∈ s.view.history, Exchanges s.view.history adminCookie e)
    ∧ SingleUse s.view.history := by
  obtain ⟨s, before, hs, -, hview⟩ := exists_adminFailed
  obtain ⟨e, past, hfailed, hex⟩ := adminFailed_exchanges 1 s.view.history (by
    rw [hview]
    exact fun e he => List.mem_append_left before he)
  refine ⟨s, hs, ⟨e, ?_, hex⟩, single_use (by decide) (serdeOf_roundTrips _ _) hs⟩
  rw [hview, hfailed]
  exact List.mem_cons_self

/-- **A value that is exchanged twice**: the token endpoint cannot be reached, and the browser still
holds the cookie when it delivers the callback again. -/
theorem exchanged_twice : adminLogin.session.name ≠ adminLogin.protection.name
    ∧ adminLogin.serde.RoundTrips
    ∧ ∃ s : BrowserRun, Reachable adminLogin.browserMachine s ∧ ¬ SingleUse s.view.history := by
  refine ⟨by decide, serdeOf_roundTrips _ _, ?_⟩
  obtain ⟨s₁, before, hs₁, hidle, hview₁⟩ := exists_adminFailed
  have hagain : Plays adminLogin.browserMachine 2 (.callback "code=x&state=s1") s₁.view
      (⟨.deliver "code=x&state=s1", some adminCookie⟩ :: adminFailure.inBrowser)
      ⟨adminBrowser, adminFailed 2 adminBrowser ++ s₁.view.history⟩ := by
    rw [hview₁]
    exact plays_adminFailed performs_deliver
      (fun v op a hdraw hgenuine => ⟨rfl, fun h => absurd h hdraw, hgenuine⟩)
  obtain ⟨s, hs, hview, -⟩ := hs₁.of_restrict.submit hidle
    (hagain.alone (returns_browse_of_error returns_adminFailure))
  refine ⟨s, hs, ?_⟩
  intro hsingle
  have hhistory : s.view.history
      = adminFailed 2 adminBrowser ++ (adminFailed 1 adminBrowser ++ before) := by
    rw [hview, hview₁]
  -- the exchange of task 2, after that of task 1
  obtain ⟨e, past, hfailed, hex⟩ := adminFailed_exchanges 2 s.view.history (by
    rw [hhistory]
    exact fun e he => List.mem_append_left _ he)
  obtain ⟨e', past', hfailed', hex'⟩ := adminFailed_exchanges 1 s.view.history (by
    rw [hhistory]
    exact fun e he => List.mem_append_right _ (List.mem_append_left before he))
  rw [hfailed, hfailed'] at hhistory
  exact hsingle adminCookie e _ ⟨[], hhistory⟩ hex e'
    (List.mem_append_right past List.mem_cons_self) hex'

end LoginService

end AuthnKit
