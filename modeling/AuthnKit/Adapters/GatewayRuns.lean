import AuthnKit.Adapters.Middleware
import AuthnKit.Foundation.Product

/-!
# AuthnKit — runs of a whole application

A service behind the actix middleware, whose gateway asks any number of mechanisms. Each of them
runs on a machine of its own, with whatever state it keeps; requests are interleaved at every
effect, dropped anywhere, and end in a panic where a mechanism does.

* **`Application`** — the mechanisms, their order and the gateway around them.
* **`Decided`** — who decides about a request, and what the others did.
* **`uses`** — a mechanism in the chain stands where it would stand alone.
* **`nothing_gets_past`** — what stands behind every request that the service gets to see.
-/

namespace AuthnKit

open Interleave

variable {U S E B F ι : Type}

/-- One mechanism, and the machine its requests run on. -/
structure Registration (U S : Type) where
  name : String
  part : Part (AuthContext S) (Except AuthError (Verdict U))

/-- A gateway in front of a service. No mechanism is registered twice. -/
structure Application (U S E ι : Type) where
  mechanisms : ι → Registration U S
  order : List ι
  nodup : order.Nodup
  scopes : AuthRequest → S
  publicScopePolicy : PublicScopePolicy
  cookieParser : Actix.CookieParser
  extensions : Option (U → Extensions U E → Extensions U E)

namespace Application

variable (app : Application U S E ι)

abbrev parts (k : ι) : Part (AuthContext S) (Except AuthError (Verdict U)) := (app.mechanisms k).part

/-- What a request does: an operation of a mechanism, or the call of the service. -/
abbrev Op := PartsOp app.parts (ServiceRequest U E)

abbrev Answer (B F : Type) : app.Op → Type := PartsOp.Answer fun _ => Except F B

abbrev AppProg (B F : Type) := Prog app.Op (app.Answer B F)

/-- What a mechanism does with a request by itself. -/
def asked (k : ι) (ctx : AuthContext S) :
    Prog (app.parts k).Op (app.parts k).Ans (Except AuthError (Verdict U)) :=
  (app.parts k).machine.body ctx

def authenticator (k : ι) : Authenticator (app.AppProg B F) U S where
  name := (app.mechanisms k).name
  authenticate ctx := ExceptT.mk ((app.asked k ctx).rename (PartsOp.part k))

def gateway : AuthGateway (app.AppProg B F) U S where
  scopes := app.scopes
  chain := { authenticators := app.order.map app.authenticator
             publicScopePolicy := app.publicScopePolicy }

def middleware : ActixAuthnMiddleware (app.AppProg B F) U S E B F where
  service request := Prog.perform (PartsOp.own request)
  gateway := app.gateway
  extensions := app.extensions

/-- What the mechanisms get to see of a request. -/
def context (r : ServiceRequest U E) : AuthContext S where
  request := Actix.request app.cookieParser r.parts
  credential := Credential.fromRequest (Actix.request app.cookieParser r.parts)
  scope := app.scopes (Actix.request app.cookieParser r.parts)

/-- Whether a request passes without anyone being asked about it. -/
def skips [AuthScope S] (r : ServiceRequest U E) : Bool :=
  AuthScope.isPublic (app.context r).scope
    && app.publicScopePolicy.skips (app.context r).credential

variable [DecidableEq ι] [AuthScope S]

def machine : Machine (ServiceRequest U E) app.Op (app.Answer B F) (Worlds app.parts)
    (Except F (B ⊕ Actix.Response)) :=
  product (app.middleware.call app.cookieParser) app.context

/-! ## The chain

Registered mechanisms are asked in order, each with its own part of what the request does. At any
moment it is the turn of one of them. -/

variable {app} {ctx : AuthContext S} {tr : List (Σ op : app.Op, app.Answer B F op)}

section Chain

omit [AuthScope S]

/-- It is the turn of `k`: those before it declined, and those after it have not been asked. -/
def Turn (ctx : AuthContext S) (l : List ι) (tr : List (Σ op : app.Op, app.Answer B F op)) (k : ι) :
    Prop :=
  ∃ before after, l = before ++ k :: after
    ∧ (∀ j ∈ before, Prog.Returns (app.asked j ctx) (partTrace j tr) (.ok .notApplicable))
    ∧ ∀ j ∈ after, partTrace j tr = []

/-- Who decided about a request, in a chain of these mechanisms. -/
structure Decided (ctx : AuthContext S) (l : List ι) (tr : List (Σ op : app.Op, app.Answer B F op))
    (k : ι) (answer : Except AuthError (Verdict U)) : Prop where
  decides : Prog.Returns (app.asked k ctx) (partTrace k tr) answer
  not_declines : ¬ Declines answer
  turn : Turn ctx l tr k

/-- What the first mechanism did is all there is to see of it, where the rest did nothing there. -/
theorem partTrace_first (j : ι) (tr : List (Σ op : (app.parts j).Op, (app.parts j).Ans op))
    {tr₂ : List (Σ op : app.Op, app.Answer B F op)} (h : partTrace j tr₂ = []) :
    partTrace j (Prog.renameTrace (PartsOp.part j) tr ++ tr₂) = tr := by
  rw [partTrace_append, partTrace_rename_self, h, List.append_nil]

/-- What the first mechanism did is not seen from another one. -/
theorem partTrace_rest {j k : ι} (h : j ≠ k)
    (tr : List (Σ op : (app.parts j).Op, (app.parts j).Ans op))
    (tr₂ : List (Σ op : app.Op, app.Answer B F op)) :
    partTrace k (Prog.renameTrace (PartsOp.part j) tr ++ tr₂) = partTrace k tr₂ := by
  rw [partTrace_append, partTrace_rename_of_ne k h, List.nil_append]

/-- The first of a chain is the first to be asked. -/
theorem Turn.first {j : ι} {l : List ι} (hj : j ∉ l)
    (tr : List (Σ op : (app.parts j).Op, (app.parts j).Ans op)) :
    Turn ctx (j :: l) (Prog.renameTrace (PartsOp.part j) tr : List (Σ op : app.Op, app.Answer B F op))
      j := by
  refine ⟨[], l, rfl, by simp, fun i hi => ?_⟩
  exact partTrace_rename_of_ne i (fun hji : j = i => hj (hji ▸ hi)) tr

/-- Once the first has declined, it is the turn of the others. -/
theorem Turn.next {j k : ι} {l : List ι} (hj : j ∉ l)
    {tr : List (Σ op : (app.parts j).Op, (app.parts j).Ans op)}
    (hdeclined : Prog.Returns (app.asked j ctx) tr (.ok .notApplicable))
    {tr₂ : List (Σ op : app.Op, app.Answer B F op)} (hnone : partTrace j tr₂ = [])
    (h : Turn ctx l tr₂ k) : Turn ctx (j :: l) (Prog.renameTrace (PartsOp.part j) tr ++ tr₂) k := by
  obtain ⟨before, after, rfl, hbefore, hafter⟩ := h
  have hne : ∀ i ∈ before ++ k :: after, j ≠ i := fun i hi hji => hj (hji ▸ hi)
  refine ⟨j :: before, after, rfl, ?_, ?_⟩
  · intro i hi
    rcases List.mem_cons.mp hi with rfl | hi
    · rwa [partTrace_first i tr hnone]
    · rw [partTrace_rest (hne i (by simp [hi]))]
      exact hbefore i hi
  · intro i hi
    rw [partTrace_rest (hne i (by simp [hi]))]
    exact hafter i hi

/-- A mechanism whose turn it is among the others is not the first one. -/
theorem Turn.ne {j k : ι} {l : List ι} (hj : j ∉ l) (h : Turn (B := B) (F := F) ctx l tr k) : j ≠ k := by
  obtain ⟨before, after, rfl, -, -⟩ := h
  exact fun hjk => hj (by simp [hjk])

omit [DecidableEq ι] in
/-- The answer of one mechanism, and then of the others. -/
theorem consult_cons_run (k : ι) (l : List ι) (ctx : AuthContext S) :
    (AuthChain.consult ctx ((k :: l).map (app.authenticator (B := B) (F := F)))).run
      = (app.asked k ctx).rename (PartsOp.part k) >>= fun answer => match answer with
        | .ok .notApplicable => (AuthChain.consult ctx (l.map app.authenticator)).run
        | .ok (.authenticated user) => .ret (.ok (.authenticated user))
        | .error e => .ret (.error e) := by
  rw [List.map_cons, AuthChain.consult_cons]
  show (ExceptT.mk (_ : app.AppProg B F (Except AuthError (Verdict U))) >>= _).run = _
  rw [Prog.run_mk_bind]
  congr 1
  funext answer
  cases answer with
  | error e => rfl
  | ok verdict => cases verdict <;> rfl

/-- A mechanism that is not asked does nothing. -/
theorem partTrace_of_leads {k : ι} {l : List ι} (hk : k ∉ l)
    {p : app.AppProg B F (Except AuthError (Verdict U))}
    (h : Prog.Leads (AuthChain.consult ctx (l.map app.authenticator)).run tr p) :
    partTrace k tr = [] := by
  induction l generalizing tr with
  | nil =>
    rw [(Prog.leads_ret_iff.mp h).1]
    rfl
  | cons j l ih =>
    rw [List.mem_cons, not_or] at hk
    rw [consult_cons_run] at h
    rcases Prog.Leads.of_bind h with ⟨p', hp', -⟩ | ⟨tr₁, answer, tr₂, rfl, h₁, h₂⟩
    · obtain ⟨tr', q, rfl, -, -⟩ := Prog.leads_of_rename hp'
      exact partTrace_rename_of_ne k (Ne.symm hk.1) tr'
    · obtain ⟨tr', rfl, -⟩ := Prog.returns_of_rename h₁
      rw [partTrace_append, partTrace_rename_of_ne k (Ne.symm hk.1), List.nil_append]
      rcases answer with e | verdict
      · rw [(Prog.leads_ret_iff.mp h₂).1]
        rfl
      · cases verdict with
        | authenticated user =>
          rw [(Prog.leads_ret_iff.mp h₂).1]
          rfl
        | notApplicable => exact ih hk.2 h₂

/-- **Whoever is asked stands where it would stand alone**: all before it have declined, and what it
has done is a path of its own program. -/
theorem asked_of_leads {l : List ι} (hl : l.Nodup) {op : app.Op}
    {next : app.Answer B F op → app.AppProg B F (Except AuthError (Verdict U))}
    (h : Prog.Leads (AuthChain.consult ctx (l.map app.authenticator)).run tr (.call op next)) :
    ∃ k op' next', op = .part k op' ∧ Turn ctx l tr k
      ∧ Prog.Leads (app.asked k ctx) (partTrace k tr) (.call op' next') := by
  induction l generalizing tr with
  | nil => cases (Prog.leads_ret_iff.mp h).2
  | cons j l ih =>
    obtain ⟨hj, hl⟩ := List.nodup_cons.mp hl
    rw [consult_cons_run] at h
    rcases h.of_bind_call with ⟨_, hfirst⟩ | ⟨tr₁, answer, tr₂, rfl, h₁, h₂⟩
    · -- `j` is under way
      obtain ⟨tr', op', next', rfl, rfl, hleads⟩ := Prog.leads_call_of_rename hfirst
      refine ⟨j, op', next', rfl, .first hj tr', ?_⟩
      rwa [partTrace_rename_self]
    · obtain ⟨tr', rfl, hret⟩ := Prog.returns_of_rename h₁
      rcases answer with e | verdict
      · cases (Prog.leads_ret_iff.mp h₂).2
      · cases verdict with
        | authenticated user => cases (Prog.leads_ret_iff.mp h₂).2
        | notApplicable =>
          obtain ⟨k, op', next', rfl, hturn, hleads⟩ := ih hl h₂
          refine ⟨k, op', next', rfl, hturn.next hj hret (partTrace_of_leads hj h₂), ?_⟩
          rwa [partTrace_rest (hturn.ne hj)]

/-- **Someone decides, or everyone declines**, each by a behaviour it could have had alone. -/
theorem decided_of_returns {l : List ι} (hl : l.Nodup) {answer : Except AuthError (Verdict U)}
    (h : Prog.Returns (AuthChain.consult ctx (l.map app.authenticator)).run tr answer) :
    (answer = .ok .notApplicable
        ∧ ∀ k ∈ l, Prog.Returns (app.asked k ctx) (partTrace k tr) (.ok .notApplicable))
      ∨ ∃ k, Decided ctx l tr k answer := by
  induction l generalizing tr with
  | nil => exact .inl ⟨(Prog.returns_ret_iff.mp h).2, fun k hk => absurd hk List.not_mem_nil⟩
  | cons j l ih =>
    obtain ⟨hj, hl⟩ := List.nodup_cons.mp hl
    rw [consult_cons_run] at h
    obtain ⟨tr₁, answer₁, tr₂, rfl, h₁, h₂⟩ := Prog.returns_bind_iff.mp h
    obtain ⟨tr', rfl, hret⟩ := Prog.returns_of_rename h₁
    -- `j` decides, and nobody is asked after it
    have hhere : ¬ Declines answer₁ → tr₂ = [] → answer = answer₁ →
        ∃ k, Decided ctx (j :: l) (Prog.renameTrace (PartsOp.part j) tr' ++ tr₂) k answer := by
      rintro hdecides rfl rfl
      refine ⟨j, ?_, hdecides, ?_⟩
      · rwa [partTrace_first j tr' rfl]
      · rw [List.append_nil]
        exact .first hj tr'
    rcases answer₁ with e | verdict
    · obtain ⟨rfl, rfl⟩ := Prog.returns_ret_iff.mp h₂
      exact .inr (hhere id rfl rfl)
    · cases verdict with
      | authenticated user =>
        obtain ⟨rfl, rfl⟩ := Prog.returns_ret_iff.mp h₂
        exact .inr (hhere id rfl rfl)
      | notApplicable =>
        have hnone : partTrace j tr₂ = [] := partTrace_of_leads hj h₂.leads
        rcases ih hl h₂ with ⟨rfl, hall⟩ | ⟨k, hdecides, hnot, hturn⟩
        · refine .inl ⟨rfl, fun k hk => ?_⟩
          rcases List.mem_cons.mp hk with rfl | hk
          · rwa [partTrace_first k tr' hnone]
          · rw [partTrace_rest fun hjk : j = k => hj (hjk ▸ hk)]
            exact hall k hk
        · refine .inr ⟨k, ?_, hnot, hturn.next hj hret hnone⟩
          rw [partTrace_rest (hturn.ne hj)]
          exact hdecides

end Chain

/-! ## The gateway

From the chain's answer to the gateway's: nobody is asked about a request that is skipped, and
nothing is performed but what the mechanisms do. -/

section Gateway

variable {r : ServiceRequest U E}

def concluded (app : Application U S E ι) (r : ServiceRequest U E)
    (answer : Except AuthError (Verdict U)) : Except AuthError (Option U) :=
  AuthGateway.conclude (app.context r).credential (app.context r).scope answer

/-- What the gateway comes to, and through whom. -/
inductive Concludes (r : ServiceRequest U E) (tr : List (Σ op : app.Op, app.Answer B F op)) :
    Except AuthError (Option U) → Prop where
  /-- Nobody is asked. -/
  | skipped (h : app.skips r = true) : Concludes r tr (.ok none)
  | decided {k : ι} {answer : Except AuthError (Verdict U)} (hasked : app.skips r = false)
      (h : Decided (app.context r) app.order tr k answer) : Concludes r tr (app.concluded r answer)
  | declined (hasked : app.skips r = false) (h : ∀ k ∈ app.order,
        Prog.Returns (app.asked k (app.context r)) (partTrace k tr) (.ok .notApplicable)) :
      Concludes r tr (app.concluded r (.ok .notApplicable))

/-- The gateway in front of the service, asked about a request. -/
abbrev gate (app : Application U S E ι) (B F : Type) (r : ServiceRequest U E) :
    app.AppProg B F (Except AuthError (Option U)) :=
  (app.gateway.authenticate (Actix.request app.cookieParser r.parts)).run

omit [DecidableEq ι] in
/-- The gateway, unfolded: nobody is asked, or the chain is. -/
theorem gate_eq : app.gate B F r
    = if app.skips r then .ret (.ok none)
      else (AuthChain.consult (app.context r) (app.order.map app.authenticator)).run
        >>= fun answer => .ret (app.concluded r answer) :=
  AuthGateway.run_authenticate _ _

/-- What the gateway comes to, it comes to through the mechanisms, or by skipping them. -/
theorem concludes_of_returns {result : Except AuthError (Option U)}
    (h : Prog.Returns (app.gate B F r) tr result) : Concludes r tr result := by
  rw [gate_eq] at h
  split at h
  next hskip =>
    obtain ⟨rfl, rfl⟩ := Prog.returns_ret_iff.mp h
    exact .skipped hskip
  next hasked =>
    have hasked : app.skips r = false := Bool.eq_false_iff.mpr hasked
    obtain ⟨tr₁, answer, tr₂, rfl, h₁, h₂⟩ := Prog.returns_bind_iff.mp h
    obtain ⟨rfl, rfl⟩ := Prog.returns_ret_iff.mp h₂
    rw [List.append_nil]
    rcases decided_of_returns app.nodup h₁ with ⟨rfl, hall⟩ | ⟨k, hdecided⟩
    · exact .declined hasked hall
    · exact .decided hasked hdecided

theorem asked_of_gate {op : app.Op}
    {next : app.Answer B F op → app.AppProg B F (Except AuthError (Option U))}
    (h : Prog.Leads (app.gate B F r) tr (.call op next)) :
    app.skips r = false ∧ ∃ k op' next', op = .part k op' ∧ Turn (app.context r) app.order tr k
      ∧ Prog.Leads (app.asked k (app.context r)) (partTrace k tr) (.call op' next') := by
  rw [gate_eq] at h
  split at h
  next => cases (Prog.leads_ret_iff.mp h).2
  next hasked =>
    rcases h.of_bind_call with ⟨next', hfirst⟩ | ⟨tr₁, answer, tr₂, -, -, h₂⟩
    · exact ⟨Bool.eq_false_iff.mpr hasked, asked_of_leads app.nodup hfirst⟩
    · cases (Prog.leads_ret_iff.mp h₂).2

end Gateway

/-! ## The service

The middleware calls the service once, after the gateway is through with the request, or answers in
its place. -/

section Service

variable {r : ServiceRequest U E} {k : ι}

/-- The request the service gets once the gateway has come to a result. -/
inductive Forwards (app : Application U S E ι) (r : ServiceRequest U E) :
    Except AuthError (Option U) → ServiceRequest U E → Prop where
  | identified (user : U) :
      Forwards app r (.ok (some user)) (ActixAuthnMiddleware.identified app.extensions user r)
  | anonymous : Forwards app r (.ok none) r

/-- What the middleware does once the gateway has come to a result. -/
def onward (app : Application U S E ι) (B F : Type) (r : ServiceRequest U E) :
    Except AuthError (Option U) → app.AppProg B F (Except F (B ⊕ Actix.Response))
  | .ok (some user) =>
    .call (.own (ActixAuthnMiddleware.identified app.extensions user r)) fun a => .ret (a.map .inl)
  | .ok none => .call (.own r) fun a => .ret (a.map .inl)
  | .error e => .ret (.ok (.inr (Actix.errorToResponse e)))

omit [DecidableEq ι] in
/-- The middleware, unfolded: the gateway, and what follows its result. -/
theorem call_eq : (app.middleware (B := B) (F := F)).call app.cookieParser r
    = app.gate B F r >>= app.onward B F r := by
  unfold ActixAuthnMiddleware.call
  congr 1

omit [DecidableEq ι] [AuthScope S] in
/-- A result that lets the request pass is followed by the call of the service, and by its answer.
-/
theorem onward_forwards {result : Except AuthError (Option U)} {request : ServiceRequest U E}
    (h : Forwards app r result request) :
    app.onward B F r result = .call (.own request) fun a => .ret (a.map .inl) := by
  cases h <;> rfl

omit [DecidableEq ι] [AuthScope S] in
theorem forwards_or_refused (app : Application U S E ι) (r : ServiceRequest U E)
    (result : Except AuthError (Option U)) :
    (∃ request, Forwards app r result request) ∨ ∃ e, result = .error e := by
  rcases result with e | user
  · exact .inr ⟨e, rfl⟩
  · cases user with
    | none => exact .inl ⟨r, .anonymous⟩
    | some user => exact .inl ⟨_, .identified user⟩

omit [DecidableEq ι] [AuthScope S] in
/-- The only operation left is the call of the service. -/
theorem forwards_of_leads {result : Except AuthError (Option U)} {op : app.Op}
    {next : app.Answer B F op → app.AppProg B F (Except F (B ⊕ Actix.Response))}
    (h : Prog.Leads (app.onward B F r result) tr (.call op next)) :
    tr = [] ∧ ∃ request, op = .own request ∧ Forwards app r result request := by
  rcases forwards_or_refused app r result with ⟨request, hforwards⟩ | ⟨e, rfl⟩
  · rw [onward_forwards hforwards, Prog.leads_call_iff] at h
    rcases h with ⟨rfl, hcall⟩ | ⟨a, tr', rfl, hret⟩
    · cases hcall
      exact ⟨rfl, request, rfl, hforwards⟩
    · cases (Prog.leads_ret_iff.mp hret).2
  · cases (Prog.leads_ret_iff.mp h).2

omit [DecidableEq ι] [AuthScope S] in
/-- What the middleware answers is what the service did, or the rendered error. -/
theorem returns_of_onward {result : Except AuthError (Option U)}
    {answer : Except F (B ⊕ Actix.Response)}
    (h : Prog.Returns (app.onward B F r result) tr answer) :
    (∃ request a, Forwards app r result request ∧ tr = [⟨.own request, a⟩] ∧ answer = a.map .inl)
      ∨ ∃ e, result = .error e ∧ tr = [] ∧ answer = .ok (.inr (Actix.errorToResponse e)) := by
  rcases forwards_or_refused app r result with ⟨request, hforwards⟩ | ⟨e, rfl⟩
  · rw [onward_forwards hforwards, Prog.returns_call_iff] at h
    obtain ⟨a, tr', rfl, hret⟩ := h
    obtain ⟨rfl, rfl⟩ := Prog.returns_ret_iff.mp hret
    exact .inl ⟨request, a, hforwards, rfl, rfl⟩
  · obtain ⟨rfl, rfl⟩ := Prog.returns_ret_iff.mp h
    exact .inr ⟨e, rfl, rfl, rfl⟩

/-- A mechanism performs an operation when it is its turn, and stands where it would alone. -/
theorem turn_of_leads {op : (app.parts k).Op}
    {next : (app.parts k).Ans op → app.AppProg B F (Except F (B ⊕ Actix.Response))}
    (h : Prog.Leads ((app.middleware (B := B) (F := F)).call app.cookieParser r) tr
      (.call (.part k op) next)) :
    app.skips r = false ∧ Turn (app.context r) app.order tr k
      ∧ ∃ next', Prog.Leads (app.asked k (app.context r)) (partTrace k tr) (.call op next') := by
  rw [call_eq] at h
  rcases h.of_bind_call with ⟨next', hgate⟩ | ⟨tr₁, result, tr₂, -, -, h₂⟩
  · obtain ⟨hasked, k', op', next'', hop, hturn, hleads⟩ := asked_of_gate hgate
    cases hop
    exact ⟨hasked, hturn, next'', hleads⟩
  · -- the service is no mechanism
    obtain ⟨-, request, hop, -⟩ := forwards_of_leads h₂
    cases hop

/-- **A mechanism in the chain stands where it would stand alone**, which is what the rule for
machines made of parts asks of their programs. -/
theorem uses (k : ι) :
    Uses ((app.middleware (B := B) (F := F)).call app.cookieParser) app.context k := by
  intro r tr op next h
  exact (turn_of_leads h).2.2

theorem own_notMem_of_gate {p : app.AppProg B F (Except AuthError (Option U))}
    (h : Prog.Leads (app.gate B F r) tr p) (request : ServiceRequest U E) (a : Except F B) :
    ⟨.own request, a⟩ ∉ tr := by
  intro hmem
  obtain ⟨before, after, rfl⟩ := List.append_of_mem hmem
  obtain ⟨mid, hbefore, hrest⟩ := h.split
  cases hrest with
  | call _ =>
    obtain ⟨-, k, op', next', hop, -⟩ := asked_of_gate hbefore
    cases hop

/-- **The service is called once the gateway is through**, with what it came to. -/
theorem concludes_of_leads {request : ServiceRequest U E}
    {next : Except F B → app.AppProg B F (Except F (B ⊕ Actix.Response))}
    (h : Prog.Leads ((app.middleware (B := B) (F := F)).call app.cookieParser r) tr
      (.call (.own request) next)) :
    (∃ result, Concludes r tr result ∧ Forwards app r result request)
      ∧ ∀ request' a, ⟨.own request', a⟩ ∉ tr := by
  rw [call_eq] at h
  rcases h.of_bind_call with ⟨next', hgate⟩ | ⟨tr₁, result, tr₂, rfl, h₁, h₂⟩
  · obtain ⟨-, k, op', next'', hop, -⟩ := asked_of_gate hgate
    cases hop
  · obtain ⟨rfl, request', hop, hforwards⟩ := forwards_of_leads h₂
    cases hop
    rw [List.append_nil]
    exact ⟨⟨result, concludes_of_returns h₁, hforwards⟩, own_notMem_of_gate h₁.leads⟩

/-- A request is answered by the service, or refused without it. -/
theorem answered_of_returns {answer : Except F (B ⊕ Actix.Response)}
    (h : Prog.Returns ((app.middleware (B := B) (F := F)).call app.cookieParser r) tr answer) :
    (∃ request a, ⟨.own request, a⟩ ∈ tr ∧ answer = a.map .inl)
      ∨ ∃ e, Concludes r tr (.error e) ∧ (∀ request a, ⟨.own request, a⟩ ∉ tr)
        ∧ answer = .ok (.inr (Actix.errorToResponse e)) := by
  rw [call_eq] at h
  obtain ⟨tr₁, result, tr₂, rfl, h₁, h₂⟩ := Prog.returns_bind_iff.mp h
  rcases returns_of_onward h₂ with ⟨request, a, -, rfl, rfl⟩ | ⟨e, rfl, rfl, rfl⟩
  · exact .inl ⟨request, a, by simp, rfl⟩
  · rw [List.append_nil]
    exact .inr ⟨e, concludes_of_returns h₁, own_notMem_of_gate h₁.leads, rfl⟩

end Service

/-! ## Runs

All requests together, interleaved over the mechanisms' own worlds. Each mechanism's share of the
run is a run of its own machine. -/

section Runs

abbrev Run (app : Application U S E ι) (B F : Type) :=
  State (ServiceRequest U E) app.Op (app.Answer B F) (Worlds app.parts)
    (Except F (B ⊕ Actix.Response))

variable {s s' : app.Run B F} {i : ℕ} {r : ServiceRequest U E} {k : ι}
  {answer : Except AuthError (Verdict U)}

/-- Mechanism `k` has come to an answer about request `i`: in some run of the mechanism alone, on
the same requests, of which nothing happened that did not happen here. -/
def Came (s : app.Run B F) (i : ℕ) (r : ServiceRequest U E) (k : ι)
    (answer : Except AuthError (Verdict U)) : Prop :=
  ∃ t, Reachable (app.parts k).machine t ∧ t.Returned i (app.context r) answer
    ∧ (∀ ev ∈ t.view.history, ev ∈ (s.view.part k app.context).history)
    ∧ ∀ j ctx, t.Submitted j ctx → ∃ r', s.Submitted j r' ∧ app.context r' = ctx

/-- Why the service gets to see a request. -/
inductive Passes (s : app.Run B F) (i : ℕ) (r : ServiceRequest U E) : ServiceRequest U E → Prop where
  | identified {k : ι} {user : U} {before after : List ι} (hasked : app.skips r = false)
      (horder : app.order = before ++ k :: after) (h : Came s i r k (.ok (.authenticated user)))
      (hbefore : ∀ j ∈ before, Came s i r j (.ok .notApplicable)) :
      Passes s i r (ActixAuthnMiddleware.identified app.extensions user r)
  | unclaimed (hasked : app.skips r = false)
      (hpublic : AuthScope.isPublic (app.context r).scope = true)
      (h : ∀ j ∈ app.order, Came s i r j (.ok .notApplicable)) : Passes s i r r
  | skipped (h : app.skips r = true) : Passes s i r r

inductive Refuses (s : app.Run B F) (i : ℕ) (r : ServiceRequest U E) : AuthError → Prop where
  | failed {k : ι} {e : AuthError} {before after : List ι} (hasked : app.skips r = false)
      (horder : app.order = before ++ k :: after) (h : Came s i r k (.error e))
      (hbefore : ∀ j ∈ before, Came s i r j (.ok .notApplicable)) : Refuses s i r e
  | unclaimed (hasked : app.skips r = false)
      (hprotected : AuthScope.isPublic (app.context r).scope = false)
      (h : ∀ j ∈ app.order, Came s i r j (.ok .notApplicable)) :
      Refuses s i r (AuthGateway.unclaimed (app.context r).credential (app.context r).scope)

omit [AuthScope S] in
/-- What a mechanism has come to stays so as more happens. -/
theorem Came.mono (h : Came s' i r k answer)
    (hhistory : ∀ ev ∈ s'.view.history, ev ∈ s.view.history)
    (hsubmitted : ∀ j r', s'.Submitted j r' → s.Submitted j r') : Came s i r k answer := by
  obtain ⟨t, ht, hreturned, hevents, hsub⟩ := h
  refine ⟨t, ht, hreturned, fun ev hev => ?_, fun j ctx hj => ?_⟩
  · obtain ⟨e, he, hpart⟩ := List.mem_filterMap.mp (hevents ev hev)
    exact List.mem_filterMap.mpr ⟨e, hhistory e he, hpart⟩
  · obtain ⟨r', hr', hctx⟩ := hsub j ctx hj
    exact ⟨r', hsubmitted j r' hr', hctx⟩

/-- **A mechanism's answer in the chain** is one it comes to alone. -/
theorem came_of_returns (hs : Reachable app.machine s)
    {p : app.AppProg B F (Except F (B ⊕ Actix.Response))} (hi : s.tasks i = .running r p)
    (h : Prog.Returns (app.asked k (app.context r)) (partTrace k (s.view.trace i)) answer) :
    Came s i r k answer := by
  obtain ⟨t, ht, hseen⟩ := hs.part (uses k)
  refine ⟨t, ht, hseen.returned ht hi h, fun ev hev => ?_, fun j ctx hj => hseen.exists_submitted hj⟩
  rwa [← hseen.view]

/-- The ways to the service: as somebody, or as nobody. -/
theorem passes_of_concludes {tr : List (Σ op : app.Op, app.Answer B F op)}
    (hcame : ∀ k answer, Prog.Returns (app.asked k (app.context r)) (partTrace k tr) answer →
      Came s i r k answer)
    {result : Except AuthError (Option U)} {request : ServiceRequest U E}
    (hresult : Concludes r tr result) (hforwards : Forwards app r result request) :
    Passes s i r request := by
  cases hresult with
  | skipped h =>
    cases hforwards
    exact .skipped h
  | @decided k answer hasked h =>
    obtain ⟨hdecides, hnot, before, after, horder, hbefore, -⟩ := h
    rcases answer with e | verdict
    · cases hforwards
    · cases verdict with
      | notApplicable => exact absurd trivial hnot
      | authenticated user =>
        cases hforwards
        exact .identified hasked horder (hcame k _ hdecides) fun j hj => hcame j _ (hbefore j hj)
  | declined hasked h =>
    cases hpublic : AuthScope.isPublic (app.context r).scope with
    | true =>
      simp only [concluded, AuthGateway.conclude, hpublic, if_true] at hforwards
      cases hforwards
      exact .unclaimed hasked hpublic fun j hj => hcame j _ (h j hj)
    | false =>
      simp only [concluded, AuthGateway.conclude, hpublic, Bool.false_eq_true, if_false] at hforwards
      cases hforwards

/-- The ways to a refusal: a mechanism's error, or that nobody took the request. -/
theorem refuses_of_concludes {tr : List (Σ op : app.Op, app.Answer B F op)}
    (hcame : ∀ k answer, Prog.Returns (app.asked k (app.context r)) (partTrace k tr) answer →
      Came s i r k answer)
    {e : AuthError} (hresult : Concludes r tr (.error e)) : Refuses s i r e := by
  generalize hres : (.error e : Except AuthError (Option U)) = result at hresult
  cases hresult with
  | skipped h => cases hres
  | @decided k answer hasked h =>
    obtain ⟨hdecides, hnot, before, after, horder, hbefore, -⟩ := h
    rcases answer with e' | verdict
    · cases hres
      exact .failed hasked horder (hcame k _ hdecides) fun j hj => hcame j _ (hbefore j hj)
    · cases verdict with
      | notApplicable => exact absurd trivial hnot
      | authenticated user => cases hres
  | declined hasked h =>
    cases hpublic : AuthScope.isPublic (app.context r).scope with
    | true =>
      simp only [concluded, AuthGateway.conclude, hpublic, if_true] at hres
      cases hres
    | false =>
      simp only [concluded, AuthGateway.conclude, hpublic, Bool.false_eq_true, if_false] at hres
      cases hres
      exact .unclaimed hasked hpublic fun j hj => hcame j _ (h j hj)

/-- What an application does with its requests. -/
structure Guarded (s : app.Run B F) : Prop where
  /-- A mechanism is asked about what everyone before it has declined. -/
  asked : ∀ ev ∈ s.view.history, ∀ k op a, ev.Did (.part k op) a → app.skips ev.req = false
    ∧ ∃ before after, app.order = before ++ k :: after
      ∧ ∀ j ∈ before, Came s ev.task ev.req j (.ok .notApplicable)
  /-- Whatever the service gets to see has passed. -/
  passed : ∀ ev ∈ s.view.history, ∀ request a, ev.Did (.own request) a →
    Passes s ev.task ev.req request
  /-- It gets to see each request once. -/
  once : ∀ ev ∈ s.view.history, ∀ ev' ∈ s.view.history, ∀ request a request' a',
    ev.Did (.own request) a → ev'.Did (.own request') a' → ev.task = ev'.task → ev = ev'
  /-- Its answer is passed on, and nobody else answers but by a refusal. -/
  returned : ∀ i r answer, s.Returned i r answer →
    (∃ ev ∈ s.view.history, ev.task = i ∧ ∃ request a, ev.Did (.own request) a
        ∧ answer = a.map .inl)
      ∨ ∃ e, Refuses s i r e ∧ answer = .ok (.inr (Actix.errorToResponse e))
        ∧ ∀ ev ∈ s.view.history, ev.task = i → ∀ request a, ¬ ev.Did (.own request) a

/-- The state before a call of the service: the request passes, and has not been passed on before.
-/
theorem call_of_happened (hs : Reachable app.machine s)
    {ev : Event (ServiceRequest U E) app.Op (app.Answer B F) (Worlds app.parts)}
    {past : List (Event (ServiceRequest U E) app.Op (app.Answer B F) (Worlds app.parts))}
    (hev : Happened s.view.history ev past) {request : ServiceRequest U E} {a : Except F B}
    (hdid : ev.Did (.own request) a) :
    Passes s ev.task ev.req request
      ∧ ∀ ev' ∈ past, ev'.task = ev.task → ∀ request' a', ¬ ev'.Did (.own request') a' := by
  obtain ⟨s', next, hs', hview, hrunning, hsubmitted⟩ := hs.state_before hev
  have hmono : ∀ {k answer}, Came s' ev.task ev.req k answer → Came s ev.task ev.req k answer :=
    fun h => h.mono (fun e he => hev.past_mem (by rwa [hview] at he)) hsubmitted
  obtain ⟨task, req, op, ans, pre, post⟩ := ev
  cases hdid
  obtain ⟨⟨result, hresult, hforwards⟩, hnone⟩ := concludes_of_leads (hs'.leads_running hrunning)
  have hpasses : Passes s' task req request :=
    passes_of_concludes (fun k answer => came_of_returns hs' hrunning) hresult hforwards
  constructor
  · cases hpasses with
    | identified hasked horder h hbefore =>
      exact .identified hasked horder (hmono h) fun j hj => hmono (hbefore j hj)
    | unclaimed hasked hpublic h => exact .unclaimed hasked hpublic fun j hj => hmono (h j hj)
    | skipped h => exact .skipped h
  · intro ev' hev' htask request' a' hdid'
    refine hnone request' a' (View.mem_trace.mpr ⟨ev', ?_, htask, hdid'⟩)
    rw [hview]
    exact hev'

/-- The state before an operation of a mechanism: those before it have declined the request. -/
theorem asked_of_happened (hs : Reachable app.machine s)
    {ev : Event (ServiceRequest U E) app.Op (app.Answer B F) (Worlds app.parts)}
    {past : List (Event (ServiceRequest U E) app.Op (app.Answer B F) (Worlds app.parts))}
    (hev : Happened s.view.history ev past) {op : (app.parts k).Op} {a : (app.parts k).Ans op}
    (hdid : ev.Did (.part k op) a) :
    app.skips ev.req = false ∧ ∃ before after, app.order = before ++ k :: after
      ∧ ∀ j ∈ before, Came s ev.task ev.req j (.ok .notApplicable) := by
  obtain ⟨s', next, hs', hview, hrunning, hsubmitted⟩ := hs.state_before hev
  have hmono : ∀ {k answer}, Came s' ev.task ev.req k answer → Came s ev.task ev.req k answer :=
    fun h => h.mono (fun e he => hev.past_mem (by rwa [hview] at he)) hsubmitted
  obtain ⟨task, req, op, ans, pre, post⟩ := ev
  cases hdid
  obtain ⟨hasked, ⟨before, after, horder, hbefore, -⟩, -⟩ :=
    turn_of_leads (hs'.leads_running hrunning)
  exact ⟨hasked, before, after, horder,
    fun j hj => hmono (came_of_returns hs' hrunning (hbefore j hj))⟩

/-- What an application does with its requests, in every run. -/
theorem guarded_of_reachable (app : Application U S E ι) {s : app.Run B F}
    (hs : Reachable app.machine s) : Guarded s := by
  refine ⟨?_, ?_, ?_, ?_⟩
  · intro ev hev k op a hdid
    obtain ⟨past, hhappened⟩ := happened_of_mem hev
    exact asked_of_happened hs hhappened hdid
  · intro ev hev request a hdid
    obtain ⟨past, hhappened⟩ := happened_of_mem hev
    exact (call_of_happened hs hhappened hdid).1
  · intro ev hev ev' hev' request a request' a' hdid hdid' htask
    by_contra hne
    rcases happened_total hev hev' (Ne.symm hne) with ⟨past, hhappened, hmem⟩ | ⟨past, hhappened, hmem⟩
    · exact (call_of_happened hs hhappened hdid).2 ev' hmem htask.symm request' a' hdid'
    · exact (call_of_happened hs hhappened hdid').2 ev hmem htask request a hdid
  · intro i r answer hreturned
    rcases answered_of_returns (hs.returns hreturned) with
      ⟨request, a, hmem, rfl⟩ | ⟨e, hresult, hnone, rfl⟩
    · obtain ⟨ev, hev, htask, hdid⟩ := View.mem_trace.mp hmem
      exact .inl ⟨ev, hev, htask, request, a, hdid, rfl⟩
    · refine .inr ⟨e, ?_, rfl, ?_⟩
      · exact refuses_of_concludes (fun k answer => came_of_returns hs hreturned) hresult
      · intro ev hev htask request a hdid
        exact hnone request a (View.mem_trace.mpr ⟨ev, hev, htask, hdid⟩)

/-- **Nothing gets past the gateway**, in any run of an application: who is asked and when, what the
service gets to see, and what the others get to hear. -/
theorem nothing_gets_past (app : Application U S E ι) (s : app.Run B F)
    (hs : Reachable app.machine s) : Guarded s :=
  app.guarded_of_reachable hs

omit [DecidableEq ι] [AuthScope S] in
/-- Mechanisms that decline at once leave the request to those after them. -/
theorem consult_of_declined {ctx : AuthContext S} {before : List ι}
    (h : ∀ j ∈ before, app.asked j ctx = .ret (.ok .notApplicable)) (l : List ι) :
    (AuthChain.consult ctx ((before ++ l).map (app.authenticator (B := B) (F := F)))).run
      = (AuthChain.consult ctx (l.map app.authenticator)).run := by
  induction before with
  | nil => rfl
  | cons j before ih =>
    rw [List.cons_append, consult_cons_run, h j List.mem_cons_self]
    exact ih fun i hi => h i (List.mem_cons_of_mem j hi)

/-- **A request that a mechanism answers goes on to the service**, once those before it have
declined at once. The mechanisms but for the one that answers do not notice. -/
theorem exists_served (app : Application U S E ι) {i : ℕ} {r : ServiceRequest U E} {k : ι}
    {V : View (ServiceRequest U E) app.Op (app.Answer B F) (Worlds app.parts)}
    {v : View (AuthContext S) (app.parts k).Op (app.parts k).Ans (app.parts k).World}
    {before after : List ι} {user : U} (hasked : app.skips r = false)
    (horder : app.order = before ++ k :: after)
    (hbefore : ∀ j ∈ before, app.asked j (app.context r) = .ret (.ok .notApplicable))
    (h : Alone (app.parts k).machine i (app.context r) (V.part k app.context)
      (app.asked k (app.context r)) v (.ret (.ok (.authenticated user)))) (a : Except F B) :
    ∃ V', Alone app.machine i r V ((app.middleware (B := B) (F := F)).call app.cookieParser r) V'
        (.ret (a.map .inl))
      ∧ (∀ j, j ≠ k → V'.part j app.context = V.part j app.context)
      ∧ ∃ ev ∈ V'.history, ev.task = i ∧ ev.req = r
        ∧ ev.Did (.own (ActixAuthnMiddleware.identified app.extensions user r)) a := by
  let rest : Except AuthError (Verdict U) → app.AppProg B F (Except F (B ⊕ Actix.Response)) :=
    fun answer => (match answer with
      | .ok .notApplicable => (AuthChain.consult (app.context r) (after.map app.authenticator)).run
      | .ok (.authenticated user) => .ret (.ok (.authenticated user))
      | .error e => .ret (.error e)) >>= fun answer => app.onward B F r (app.concluded r answer)
  obtain ⟨V₁, -, hframe, hwhole⟩ := h.whole
    ((app.middleware (B := B) (F := F)).call app.cookieParser) rest rfl
  have hbody : (app.middleware (B := B) (F := F)).call app.cookieParser r
      = (app.asked k (app.context r)).rename (PartsOp.part k) >>= rest := by
    rw [call_eq, gate_eq, hasked, horder, consult_of_declined hbefore, consult_cons_run]
    simp only [Bool.false_eq_true, if_false, Prog.bind_assoc, Prog.ret_bind]
    rfl
  rw [hbody]
  -- the only step left is the service's
  refine ⟨_, hwhole.trans (.act a V₁.world rfl (.refl _ _)), fun j hj => ?_, _, List.mem_cons_self,
    rfl, rfl, rfl⟩
  rw [← hframe j hj]
  exact View.part_after_none rfl rfl

end Runs

end Application

end AuthnKit
