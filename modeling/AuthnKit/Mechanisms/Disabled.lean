import AuthnKit.Adapters.Installation

/-!
# AuthnKit — the authenticator for development

`src/mechanisms/disabled.rs`: every request is the one configured identity.

* **`nothing_after_disabled`** — registered anywhere in a chain, it has the last word: nobody after
  it is ever asked, and nobody it is asked about goes on anonymously or is challenged.
-/

namespace AuthnKit

open Interleave

variable {m : Type → Type} {U S E B F ι : Type}

structure DisabledAuthenticator where
  claims : IdentityClaims

namespace DisabledAuthenticator

def new (claims : IdentityClaims) : DisabledAuthenticator := ⟨claims⟩

/-- Conspicuously named, to be seen in audit logs. -/
def development : DisabledAuthenticator :=
  new (IdentityClaims.new .staticToken
    |>.withSubject "authn-disabled"
    |>.withPreferredUsername "authn-disabled"
    |>.withEmail "authn-disabled@invalid")

variable [Principal U]

/-- The request is not looked at. -/
def authenticate (d : DisabledAuthenticator) (_ctx : AuthContext S) : Except AuthError (Verdict U) :=
  match (Principal.tryFrom d.claims : Except String U) with
  | .ok user => .ok (.authenticated user)
  | .error e => .error (.internal ("disabled-auth identity could not be converted: " ++ e))

def authenticator [Monad m] (d : DisabledAuthenticator) : Authenticator m U S where
  name := "disabled"
  authenticate ctx := ExceptT.mk (pure (d.authenticate ctx))

/-- It performs no operation. -/
def mechanism (d : DisabledAuthenticator) : Registration U S where
  name := "disabled"
  part :=
    { Op := Empty
      Ans := fun _ => Unit
      World := Unit
      machine :=
        { body := fun ctx => (d.authenticator.authenticate ctx).run
          init := fun _ => True
          exec := fun _ _ _ _ _ => True
          abandon := fun _ _ _ _ => True
          env := fun _ _ => True } }

theorem not_declines (d : DisabledAuthenticator) (ctx : AuthContext S) :
    ¬ Declines (d.authenticate ctx : Except AuthError (Verdict U)) := by
  unfold authenticate
  cases (Principal.tryFrom d.claims : Except String U) <;> exact id

/-- Whom it identifies is its configured identity, whatever the request was. -/
theorem authenticate_eq_ok {d : DisabledAuthenticator} {ctx : AuthContext S} {user : U}
    (h : d.authenticate ctx = .ok (.authenticated user)) : Principal.tryFrom d.claims = .ok user := by
  unfold authenticate at h
  cases hfrom : (Principal.tryFrom d.claims : Except String U) with
  | ok user' =>
    rw [hfrom] at h
    cases h
    rfl
  | error text =>
    rw [hfrom] at h
    cases h

/-- It fails only where the application does not accept that identity, and then as an internal
error. -/
theorem authenticate_eq_error {d : DisabledAuthenticator} {ctx : AuthContext S} {e : AuthError}
    (h : (d.authenticate ctx : Except AuthError (Verdict U)) = .error e) :
    ∃ text, (Principal.tryFrom d.claims : Except String U) = .error text
      ∧ e = .internal ("disabled-auth identity could not be converted: " ++ text) := by
  unfold authenticate at h
  cases hfrom : (Principal.tryFrom d.claims : Except String U) with
  | ok user =>
    rw [hfrom] at h
    cases h
  | error text =>
    rw [hfrom] at h
    cases h
    exact ⟨text, rfl, rfl⟩

end DisabledAuthenticator

/-- Two of a list: the same, or one stands before the other. -/
theorem List.before_or_after {α : Type} {before after before' after' : List α} {a b : α}
    (h : before ++ a :: after = before' ++ b :: after') :
    (a = b ∧ before = before') ∨ a ∈ before' ∨ b ∈ before := by
  rcases List.append_eq_append_iff.mp h with ⟨l, rfl, hl⟩ | ⟨l, rfl, hl⟩
  · cases l with
    | nil => exact .inl ⟨(List.cons.inj hl).1, by simp⟩
    | cons x l => exact .inr (.inl (by simp [(List.cons.inj hl).1]))
  · cases l with
    | nil => exact .inl ⟨((List.cons.inj hl).1).symm, by simp⟩
    | cons x l => exact .inr (.inr (by simp [(List.cons.inj hl).1]))

namespace Application

variable [Principal U] [DecidableEq ι] [AuthScope S] {app : Application U S E ι}
  {s : app.Run B F} {i : ℕ} {r : ServiceRequest U E} {k : ι} {d : DisabledAuthenticator}

omit [DecidableEq ι] [AuthScope S] in
/-- Asked in an application, it returns at once. -/
theorem asked_disabled (hk : app.mechanisms k = d.mechanism) (ctx : AuthContext S) :
    app.asked k ctx = .ret (d.authenticate ctx) := by
  unfold asked parts
  rw [hk]
  rfl

omit [AuthScope S] in
/-- It comes to one answer only, which the request's context does not influence. -/
theorem came_disabled (hk : app.mechanisms k = d.mechanism)
    {answer : Except AuthError (Verdict U)} (h : Came s i r k answer) :
    answer = d.authenticate (app.context r) := by
  obtain ⟨t, ht, hreturned, -, -⟩ := h
  have hret : Prog.Returns (app.asked k (app.context r)) (t.view.trace i) answer := ht.returns hreturned
  rw [asked_disabled hk] at hret
  exact (Prog.returns_ret_iff.mp hret).2

omit [AuthScope S] in
theorem not_came_declined (hk : app.mechanisms k = d.mechanism) :
    ¬ Came s i r k (.ok .notApplicable) := by
  intro h
  have hanswer := came_disabled hk h
  have hnot := d.not_declines (U := U) (app.context r)
  rw [← hanswer] at hnot
  exact hnot trivial

/-- What is left for a request that comes to the mechanisms in `before` and then to the disabled
authenticator. -/
structure Shadowed (app : Application U S E ι) (d : DisabledAuthenticator) (before after : List ι)
    (s : app.Run B F) : Prop where
  idle : ∀ ev ∈ s.view.history, ∀ j ∈ after, ∀ op a, ¬ ev.Did (.part j op) a
  /-- Nobody is anonymous for want of a mechanism. -/
  identified : ∀ ev ∈ s.view.history, ∀ request a, ev.Did (.own request) a →
    (app.skips ev.req = true ∧ request = ev.req)
      ∨ ∃ user, request = ActixAuthnMiddleware.identified app.extensions user ev.req
        ∧ ((∃ j ∈ before, Came s ev.task ev.req j (.ok (.authenticated user)))
          ∨ Principal.tryFrom d.claims = .ok user)
  /-- Nobody is refused for want of a mechanism. -/
  refused : ∀ i r response, s.Returned i r (.ok (.inr response)) →
    ∃ e, response = Actix.errorToResponse e
      ∧ ((∃ j ∈ before, Came s i r j (.error e))
        ∨ ∃ text, (Principal.tryFrom d.claims : Except String U) = .error text
          ∧ e = .internal ("disabled-auth identity could not be converted: " ++ text))

/-- **The disabled authenticator has the last word**, in any run of any application it is registered
in: the mechanisms after it perform nothing, and what those before it decline is let in as its
identity. -/
theorem nothing_after_disabled (app : Application U S E ι) (d : DisabledAuthenticator) (k : ι)
    (before after : List ι) (hk : app.mechanisms k = d.mechanism)
    (horder : app.order = before ++ k :: after) (s : app.Run B F) (hs : Reachable app.machine s) :
    Shadowed app d before after s := by
  have hguarded := app.guarded_of_reachable hs
  have hnodup := app.nodup
  rw [horder] at hnodup
  -- whoever is asked after it would have seen it decline
  have hbefore : ∀ {i r j before' after'}, app.order = before' ++ j :: after' →
      (∀ j' ∈ before', Came s i r j' (.ok .notApplicable)) → j = k ∨ j ∈ before := by
    intro i r j before' after' horder' hdeclined
    rw [horder] at horder'
    rcases List.before_or_after horder' with ⟨rfl, -⟩ | hk' | hj
    · exact .inl rfl
    · exact absurd (hdeclined k hk') (not_came_declined hk)
    · exact .inr hj
  have hmem : k ∈ app.order := by rw [horder]; simp
  refine ⟨?_, ?_, ?_⟩
  · intro ev hev j hj op a hdid
    obtain ⟨-, before', after', horder', hdeclined⟩ := hguarded.asked ev hev j op a hdid
    obtain ⟨-, hafter, hdisjoint⟩ := List.nodup_append.mp hnodup
    rcases hbefore horder' hdeclined with rfl | hj'
    · exact (List.nodup_cons.mp hafter).1 hj
    · exact hdisjoint j hj' j (List.mem_cons_of_mem k hj) rfl
  · intro ev hev request a hdid
    cases hguarded.passed ev hev request a hdid with
    | skipped h => exact .inl ⟨h, rfl⟩
    | unclaimed hasked hpublic h => exact absurd (h k hmem) (not_came_declined hk)
    | @identified j user before' after' hasked horder' h hdeclined =>
      refine .inr ⟨user, rfl, ?_⟩
      rcases hbefore horder' hdeclined with rfl | hj
      · exact .inr (DisabledAuthenticator.authenticate_eq_ok (came_disabled hk h).symm)
      · exact .inl ⟨j, hj, h⟩
  · intro i r response hreturned
    rcases hguarded.returned i r _ hreturned with
      ⟨ev, -, -, request, a, -, hanswer⟩ | ⟨e, hrefuses, hanswer, -⟩
    · cases a <;> cases hanswer
    · cases hanswer
      refine ⟨e, rfl, ?_⟩
      cases hrefuses with
      | unclaimed hasked hprotected h => exact absurd (h k hmem) (not_came_declined hk)
      | @failed j e before' after' hasked horder' h hdeclined =>
        rcases hbefore horder' hdeclined with rfl | hj
        · exact .inr (DisabledAuthenticator.authenticate_eq_error (came_disabled hk h).symm)
        · exact .inl ⟨j, hj, h⟩

end Application

/-! ## A development server

Introspected API tokens come first and passwords last; between them anybody is let in. -/

section Example

def devServer : Installation User NoScope Unit Unit :=
  abcInstallation (fun _ => DisabledAuthenticator.development.mechanism)
    [.token, .other (), .basic] (by decide)

def devUser : User := ⟨"authn-disabled@invalid", "authn-disabled"⟩

/-- **A key is accepted before it, a password is not looked at after it**: the request with the
password of `ada`, which the last mechanism would accept, comes to the service as the development
identity. -/
theorem devServer_shadowed :
    ∃ s : devServer.application.Run String Unit, ServedAs s abcCall abcUser
      ∧ ServedAs s adaCall devUser
      ∧ Application.Shadowed devServer.application .development [.token] [.basic] s := by
  let start : Worlds devServer.application.parts := fun
    | .token => abcStart
    | .basic => abcStart
    | .other _ => ()
  have hstart : (devServer.application.machine (B := String) (F := Unit)).init start := by
    intro k
    cases k with
    | token => rfl
    | basic => rfl
    | other x => trivial
  have hasked : devServer.application.asked (.other ()) (abcContext adaCall)
      = .ret (.ok (.authenticated devUser)) :=
    (Application.asked_disabled (d := .development) rfl _).trans rfl
  -- it performs no operation
  have haccepts : ∃ v, Alone (devServer.application.parts (.other ())).machine 1 (abcContext adaCall)
      ⟨(), []⟩ (devServer.application.asked (.other ()) (abcContext adaCall)) v
      (.ret (.ok (.authenticated devUser))) := by
    rw [hasked]
    exact ⟨_, .refl _ _⟩
  obtain ⟨s, hs, hkey, hpassword, -⟩ := exists_abc_run (k := .other ()) rfl hstart rfl haccepts
  exact ⟨s, hkey, hpassword, Application.nothing_after_disabled devServer.application .development
    (.other ()) [.token] [.basic] rfl rfl s hs⟩

end Example

end AuthnKit
