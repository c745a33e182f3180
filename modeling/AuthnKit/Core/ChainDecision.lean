import AuthnKit.Core.Chain

/-!
# AuthnKit — what the chain decides

The chain over authenticators that are arbitrary steps on a world `W`. The loop of
`AuthChain.authenticate` is a sequential consultation (`Foundation.Consult`) whose parties are
the authenticators and whose refusals are `Verdict.notApplicable`; a gateway then turns the
deciding answer, or the lack of one, into its result.

* **`consult_run`** — the loop is the consultation.
* **`authenticateWith_run`** — the gateway's result and final world, as one expression.
* **`ChainDecision`** — the decision table, for every list of authenticators.
* **`authenticateWith_decides`** — the gateway decides by the table.
-/

namespace AuthnKit

variable {W U S : Type}

/-! ## Authenticators as parties

An authenticator is a step on the world that answers with a verdict or a failure. Only one answer
passes the request on, which makes the chain's loop a consultation of parties. -/

/-- An authenticator, asked about `ctx`, as a step on the world. -/
def Authenticator.party (ctx : AuthContext S) (a : Authenticator (StateM W) U S) :
    Consult.Party W (Except AuthError (Verdict U)) :=
  fun w => (a.authenticate ctx).run.run w

/-- The answer that leaves the request to the next authenticator. -/
def Declines : Except AuthError (Verdict U) → Prop
  | .ok .notApplicable => True
  | _ => False

instance : DecidablePred (Declines (U := U))
  | .ok .notApplicable => isTrue trivial
  | .ok (.authenticated _) => isFalse id
  | .error _ => isFalse id

@[simp] theorem declines_notApplicable : Declines (.ok .notApplicable : Except _ (Verdict U)) :=
  trivial

@[simp] theorem not_declines_authenticated (user : U) : ¬ Declines (.ok (.authenticated user)) :=
  id

/-- A failure decides the request as well, so a broken mechanism is not skipped. -/
@[simp] theorem not_declines_error (e : AuthError) :
    ¬ Declines (.error e : Except _ (Verdict U)) := id

namespace AuthChain

/-- The chain's authenticators as parties, in registration order. -/
def parties (c : AuthChain (StateM W) U S) (ctx : AuthContext S) :
    List (Consult.Party W (Except AuthError (Verdict U))) :=
  c.authenticators.map (·.party ctx)

/-- **The loop is the consultation.** The verdict of the loop is the deciding answer, or "not
applicable" when there is none. Induction on the list of authenticators. -/
theorem consult_run (ctx : AuthContext S) (as : List (Authenticator (StateM W) U S)) (w : W) :
    (consult ctx as).run.run w
      = ((Consult.run Declines (as.map (·.party ctx)) w).1.getD (.ok .notApplicable),
          (Consult.run Declines (as.map (·.party ctx)) w).2) := by
  induction as generalizing w with
  | nil => rfl
  | cons a rest ih =>
    rw [List.map_cons, Consult.run, consult, ExceptT.run_bind, StateT.run_bind]
    have hstep : (a.authenticate ctx).run.run w = a.party ctx w := rfl
    rw [hstep]
    show StateT.run _ (a.party ctx w).2 = _
    cases hans : (a.party ctx w).1 with
    | error e => rfl
    | ok verdict =>
      cases verdict with
      | authenticated user => rfl
      | notApplicable => exact ih (a.party ctx w).2

end AuthChain

/-! ## Asking about one request -/

namespace AuthGateway

def context (g : AuthGateway (StateM W) U S) (request : AuthRequest) (credential : Credential) :
    AuthContext S :=
  ⟨request, credential, g.scopes request⟩

/-- The deciding answer, if any, of asking the chain about the request. -/
def consultation (g : AuthGateway (StateM W) U S) (request : AuthRequest)
    (credential : Credential) (w : W) : Option (Except AuthError (Verdict U)) × W :=
  Consult.run Declines (g.chain.parties (g.context request credential)) w

/-- Authenticator `i` is reached, because all before it declined, and answers `answer`. -/
def Reaches (g : AuthGateway (StateM W) U S) (request : AuthRequest) (credential : Credential)
    (w : W) (i : ℕ) (answer : Except AuthError (Verdict U)) : Prop :=
  Consult.answerAt (g.chain.parties (g.context request credential)) w i = some answer
    ∧ Consult.DeclinedBefore Declines (g.chain.parties (g.context request credential)) w i

/-- Every authenticator declines. -/
def Unclaimed (g : AuthGateway (StateM W) U S) (request : AuthRequest) (credential : Credential)
    (w : W) : Prop :=
  Consult.AllDecline Declines (g.chain.parties (g.context request credential)) w

/-- An answer that is no refusal decides the consultation exactly when some authenticator is reached
and gives it. -/
theorem consultation_eq_some_iff (g : AuthGateway (StateM W) U S) (request : AuthRequest)
    (credential : Credential) (w : W) {answer : Except AuthError (Verdict U)}
    (h : ¬ Declines answer) :
    (g.consultation request credential w).1 = some answer
      ↔ ∃ i, g.Reaches request credential w i answer := by
  unfold consultation
  rw [Consult.run_eq_some_iff]
  constructor
  · rintro ⟨i, hans, _, hbefore⟩
    exact ⟨i, hans, hbefore⟩
  · rintro ⟨i, hans, hbefore⟩
    exact ⟨i, hans, h, hbefore⟩

/-- Nothing decides exactly when every authenticator declines, each where those before it have left
the world. -/
theorem consultation_eq_none_iff (g : AuthGateway (StateM W) U S) (request : AuthRequest)
    (credential : Credential) (w : W) :
    (g.consultation request credential w).1 = none ↔ g.Unclaimed request credential w :=
  Consult.run_eq_none_iff _ _

/-- The answer that decides is never a refusal, so the gateway does not take one for a result. -/
theorem not_declines_of_consultation {g : AuthGateway (StateM W) U S} {request : AuthRequest}
    {credential : Credential} {w : W} {answer : Except AuthError (Verdict U)}
    (h : (g.consultation request credential w).1 = some answer) : ¬ Declines answer := by
  obtain ⟨_, _, hna, _⟩ := (Consult.run_eq_some_iff _ _ _).mp h
  exact hna

/-! ## The gateway's result

Between the deciding answer and the result stand the scope and the policy: one may spare the chain
the question, the other tells what an unclaimed request becomes. -/

variable [AuthScope S]

/-- What the gateway makes of a verdict on a scope. -/
def conclude (credential : Credential) (scope : S) :
    Except AuthError (Verdict U) → Except AuthError (Option U)
  | .ok (.authenticated user) => .ok (some user)
  | .ok .notApplicable =>
    if AuthScope.isPublic scope then .ok none else .error (unclaimed credential scope)
  | .error e => .error e

/-- The request is answered without asking anyone: a public scope, and either the policy says
so or there is no credential to look at. -/
def Skips (g : AuthGateway (StateM W) U S) (request : AuthRequest) (credential : Credential) :
    Prop :=
  AuthScope.isPublic (g.scopes request) = true
    ∧ (g.chain.publicScopePolicy = .alwaysAnonymous
      ∨ g.chain.publicScopePolicy = .optional ∧ credential = .none)

/-- Skipping, in the source's terms: the scope is public, and the policy says so for this
credential. -/
theorem skips_iff (g : AuthGateway (StateM W) U S) (request : AuthRequest)
    (credential : Credential) :
    g.Skips request credential
      ↔ (AuthScope.isPublic (g.scopes request)
        && g.chain.publicScopePolicy.skips credential) = true := by
  unfold Skips
  cases g.chain.publicScopePolicy <;> simp [PublicScopePolicy.skips]

def runWith (g : AuthGateway (StateM W) U S) (request : AuthRequest) (credential : Credential)
    (w : W) : Except AuthError (Option U) × W :=
  (g.authenticateWith request credential).run.run w

/-- A skipped request is anonymous and touches nothing, the world included. -/
theorem runWith_of_skips {g : AuthGateway (StateM W) U S} {request : AuthRequest}
    {credential : Credential} (h : g.Skips request credential) (w : W) :
    g.runWith request credential w = (.ok none, w) := by
  rw [skips_iff] at h
  unfold runWith authenticateWith AuthChain.authenticate
  simp only [h, if_true]
  rfl

/-- Any other request is decided by the consultation, and leaves the world as the authenticators
that were asked have left it. -/
theorem runWith_of_not_skips {g : AuthGateway (StateM W) U S} {request : AuthRequest}
    {credential : Credential} (h : ¬ g.Skips request credential) (w : W) :
    g.runWith request credential w
      = (conclude credential (g.scopes request)
            ((g.consultation request credential w).1.getD (.ok .notApplicable)),
          (g.consultation request credential w).2) := by
  rw [skips_iff, Bool.not_eq_true] at h
  have hloop : (AuthChain.consult ⟨request, credential, g.scopes request⟩
        g.chain.authenticators).run.run w
      = ((g.consultation request credential w).1.getD (.ok .notApplicable),
          (g.consultation request credential w).2) :=
    AuthChain.consult_run (g.context request credential) g.chain.authenticators w
  unfold runWith authenticateWith AuthChain.authenticate
  simp only [h, Bool.false_eq_true, if_false, ExceptT.run_bind, StateT.run_bind, bind_assoc]
  rw [hloop]
  generalize (g.consultation request credential w).1.getD (.ok .notApplicable) = answer
  generalize (g.consultation request credential w).2 = w'
  cases answer with
  | error e => rfl
  | ok verdict =>
    cases verdict with
    | authenticated user => rfl
    | notApplicable =>
      cases hpub : AuthScope.isPublic (g.scopes request) with
      | false => simp [conclude, hpub]; rfl
      | true => simp [conclude, hpub]; rfl

/-! ## The decision table

One line of the table for each kind of result. They hold for every list of authenticators, so adding
a mechanism adds no line. -/

/-- **A user comes out exactly when the consultation ends with that user**, whatever the scope:
publicity only decides what an unclaimed request becomes. -/
theorem runWith_eq_some_iff {g : AuthGateway (StateM W) U S} {request : AuthRequest}
    {credential : Credential} (hskip : ¬ g.Skips request credential) (w : W) (user : U) :
    (g.runWith request credential w).1 = .ok (some user)
      ↔ ∃ i, g.Reaches request credential w i (.ok (.authenticated user)) := by
  rw [← consultation_eq_some_iff g request credential w (not_declines_authenticated user),
    runWith_of_not_skips hskip]
  cases hans : (g.consultation request credential w).1 with
  | none =>
    simp only [Option.getD_none, conclude]
    split <;> simp
  | some answer =>
    have hna := not_declines_of_consultation hans
    cases answer with
    | error e => simp [conclude]
    | ok verdict =>
      cases verdict with
      | authenticated other => simp [conclude]
      | notApplicable => exact absurd trivial hna

/-- **A failure comes out exactly when the consultation fails with it**, or nobody claimed a request
that needs an identity. In the second case the failure is the gateway's own. -/
theorem runWith_eq_error_iff {g : AuthGateway (StateM W) U S} {request : AuthRequest}
    {credential : Credential} (hskip : ¬ g.Skips request credential) (w : W) (e : AuthError) :
    (g.runWith request credential w).1 = .error e
      ↔ (∃ i, g.Reaches request credential w i (.error e))
        ∨ (AuthScope.isPublic (g.scopes request) = false ∧ g.Unclaimed request credential w
          ∧ e = unclaimed credential (g.scopes request)) := by
  rw [← consultation_eq_some_iff g request credential w (not_declines_error e),
    ← consultation_eq_none_iff, runWith_of_not_skips hskip]
  cases hans : (g.consultation request credential w).1 with
  | none =>
    cases hpub : AuthScope.isPublic (g.scopes request) with
    | true => simp [conclude, hpub]
    | false => simp [conclude, hpub, eq_comm]
  | some answer =>
    have hna := not_declines_of_consultation hans
    cases answer with
    | error e' => simp [conclude]
    | ok verdict =>
      cases verdict with
      | authenticated user => simp [conclude]
      | notApplicable => exact absurd trivial hna

/-- **Nobody is let through anonymously but an unclaimed visitor of a public scope**, that is, one
about whom every authenticator was asked and declined. -/
theorem runWith_eq_none_iff {g : AuthGateway (StateM W) U S} {request : AuthRequest}
    {credential : Credential} (hskip : ¬ g.Skips request credential) (w : W) :
    (g.runWith request credential w).1 = .ok none
      ↔ AuthScope.isPublic (g.scopes request) = true ∧ g.Unclaimed request credential w := by
  rw [← consultation_eq_none_iff, runWith_of_not_skips hskip]
  cases hans : (g.consultation request credential w).1 with
  | none =>
    cases hpub : AuthScope.isPublic (g.scopes request) with
    | true => simp [conclude, hpub]
    | false => simp [conclude, hpub]
  | some answer =>
    have hna := not_declines_of_consultation hans
    cases answer with
    | error e => simp [conclude]
    | ok verdict =>
      cases verdict with
      | authenticated user => simp [conclude]
      | notApplicable => exact absurd trivial hna

end AuthGateway

/-! ## Who was asked

The result alone does not show that later authenticators were left out. Each is made to sign a log,
and the log is compared with the numbers of those up to the deciding one. -/

/-- The authenticator, writing the number `i` to a log each time it is asked. -/
def Authenticator.logged (i : ℕ) (a : Authenticator (StateM W) U S) :
    Authenticator (StateM (W × List ℕ)) U S where
  name := a.name
  authenticate ctx := ExceptT.mk fun s =>
    let (answer, w) := (a.authenticate ctx).run.run s.1
    (answer, w, s.2 ++ [i])

namespace AuthGateway

/-- The gateway with its authenticators numbered in registration order and logged. -/
def logged (g : AuthGateway (StateM W) U S) : AuthGateway (StateM (W × List ℕ)) U S where
  scopes := g.scopes
  chain :=
    { authenticators := g.chain.authenticators.mapIdx fun i a => a.logged i
      publicScopePolicy := g.chain.publicScopePolicy }

theorem parties_logged (g : AuthGateway (StateM W) U S) (ctx : AuthContext S) :
    g.logged.chain.parties ctx
      = (g.chain.parties ctx).mapIdx fun i p => Consult.logged (0 + i) p := by
  unfold AuthChain.parties logged
  apply List.ext_getElem?
  intro i
  simp only [List.getElem?_map, List.getElem?_mapIdx, Nat.zero_add]
  cases g.chain.authenticators[i]? <;> rfl

variable [AuthScope S]

/-- The log does not change what is decided, and grows by the authenticators asked: each of them
once, and in the order of registration. -/
theorem runWith_logged {g : AuthGateway (StateM W) U S} {request : AuthRequest}
    {credential : Credential} (hskip : ¬ g.Skips request credential) (w : W) :
    g.logged.runWith request credential (w, [])
      = ((g.runWith request credential w).1, (g.runWith request credential w).2,
          List.range (Consult.consulted Declines
            (g.chain.parties (g.context request credential)) w)) := by
  have hskip' : ¬ g.logged.Skips request credential := hskip
  have hcons : g.logged.consultation request credential (w, [])
      = ((g.consultation request credential w).1, (g.consultation request credential w).2,
          List.range (Consult.consulted Declines
            (g.chain.parties (g.context request credential)) w)) := by
    unfold consultation
    have hparties := parties_logged g (g.context request credential)
    have hctx : g.logged.context request credential = g.context request credential := rfl
    rw [hctx, hparties, Consult.run_logged, List.range_eq_range', List.nil_append]
  rw [runWith_of_not_skips hskip', runWith_of_not_skips hskip, hcons]
  rfl

/-- **The decision table** of a gateway for one request, in a world: what comes out, in terms
of what the authenticators answer when they are reached. -/
structure Decides (g : AuthGateway (StateM W) U S) (request : AuthRequest)
    (credential : Credential) (w : W) : Prop where
  /-- A protected scope is entered exactly as the user of the first authenticator that does
  not decline. -/
  protected_user : AuthScope.isPublic (g.scopes request) = false → ∀ user,
    (g.runWith request credential w).1 = .ok (some user)
      ↔ ∃ i, g.Reaches request credential w i (.ok (.authenticated user))
  /-- The first authenticator that does not decline fails: so does the request. -/
  protected_error : AuthScope.isPublic (g.scopes request) = false → ∀ i e,
    g.Reaches request credential w i (.error e) → (g.runWith request credential w).1 = .error e
  protected_unclaimed : AuthScope.isPublic (g.scopes request) = false →
    g.Unclaimed request credential w →
    (g.runWith request credential w).1 = .error (unclaimed credential (g.scopes request))
  /-- There is no other failure. -/
  protected_error_only : AuthScope.isPublic (g.scopes request) = false → ∀ e,
    (g.runWith request credential w).1 = .error e →
    (∃ i, g.Reaches request credential w i (.error e))
      ∨ g.Unclaimed request credential w ∧ e = unclaimed credential (g.scopes request)
  protected_not_anonymous : AuthScope.isPublic (g.scopes request) = false →
    (g.runWith request credential w).1 ≠ .ok none
  /-- A skipped request is anonymous, and nobody is asked. -/
  skipped : g.Skips request credential →
    g.runWith request credential w = (.ok none, w)
      ∧ g.logged.runWith request credential (w, []) = (.ok none, w, [])
  public_user : AuthScope.isPublic (g.scopes request) = true →
    ¬ g.Skips request credential → ∀ user,
    (g.runWith request credential w).1 = .ok (some user)
      ↔ ∃ i, g.Reaches request credential w i (.ok (.authenticated user))
  public_error : AuthScope.isPublic (g.scopes request) = true →
    ¬ g.Skips request credential → ∀ e,
    (g.runWith request credential w).1 = .error e
      ↔ ∃ i, g.Reaches request credential w i (.error e)
  public_unclaimed : AuthScope.isPublic (g.scopes request) = true →
    ¬ g.Skips request credential →
    ((g.runWith request credential w).1 = .ok none ↔ g.Unclaimed request credential w)
  /-- The authenticators asked are exactly those up to the first that does not decline, each
  once and in registration order. -/
  asked : ¬ g.Skips request credential → ∀ i answer,
    g.Reaches request credential w i answer → ¬ Declines answer →
    (g.logged.runWith request credential (w, [])).2.2 = List.range (i + 1)
  asked_all : ¬ g.Skips request credential → g.Unclaimed request credential w →
    (g.logged.runWith request credential (w, [])).2.2
      = List.range g.chain.authenticators.length
  /-- Logging changes neither the result nor the world. -/
  logged_faithful : ¬ g.Skips request credential →
    (g.logged.runWith request credential (w, [])).1 = (g.runWith request credential w).1
      ∧ (g.logged.runWith request credential (w, [])).2.1 = (g.runWith request credential w).2

/-- **The gateway fails closed.** For every list of authenticators, each an arbitrary step on the
world, every policy, request, credential and scope, the gateway decides by the table. -/
theorem authenticateWith_decides (g : AuthGateway (StateM W) U S) (request : AuthRequest)
    (credential : Credential) (w : W) : g.Decides request credential w := by
  -- only a public scope is answered without asking
  have hprot : AuthScope.isPublic (g.scopes request) = false → ¬ g.Skips request credential := by
    intro hpub hskip
    rw [hskip.1] at hpub
    exact absurd hpub (by simp)
  constructor
  case protected_user => intro hpub user; exact runWith_eq_some_iff (hprot hpub) w user
  case protected_error =>
    intro hpub i e hi
    exact (runWith_eq_error_iff (hprot hpub) w e).mpr (.inl ⟨i, hi⟩)
  case protected_unclaimed =>
    intro hpub hall
    exact (runWith_eq_error_iff (hprot hpub) w _).mpr (.inr ⟨hpub, hall, rfl⟩)
  case protected_error_only =>
    intro hpub e he
    rcases (runWith_eq_error_iff (hprot hpub) w e).mp he with hi | ⟨_, hall, heq⟩
    · exact .inl hi
    · exact .inr ⟨hall, heq⟩
  case protected_not_anonymous =>
    intro hpub hnone
    have hpub' := ((runWith_eq_none_iff (hprot hpub) w).mp hnone).1
    rw [hpub] at hpub'
    exact absurd hpub' (by simp)
  case skipped =>
    intro hskip
    have hskip' : g.logged.Skips request credential := hskip
    exact ⟨runWith_of_skips hskip w, runWith_of_skips hskip' (w, [])⟩
  case public_user => intro _ hskip user; exact runWith_eq_some_iff hskip w user
  case public_error =>
    intro hpub hskip e
    rw [runWith_eq_error_iff hskip w e, hpub]
    simp
  case public_unclaimed =>
    intro hpub hskip
    rw [runWith_eq_none_iff hskip w, hpub]
    simp
  case asked =>
    intro hskip i answer hi hna
    have hcount : Consult.consulted Declines (g.chain.parties (g.context request credential)) w
        = i + 1 := Consult.Decides.consulted_eq ⟨hi.1, hna, hi.2⟩
    rw [runWith_logged hskip w, hcount]
  case asked_all =>
    intro hskip hall
    have hcount := Consult.AllDecline.consulted_eq hall
    rw [runWith_logged hskip w, hcount]
    simp [AuthChain.parties]
  case logged_faithful =>
    intro hskip
    rw [runWith_logged hskip w]
    exact ⟨rfl, rfl⟩

end AuthGateway

end AuthnKit
