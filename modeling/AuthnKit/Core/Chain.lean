import AuthnKit.Core.Request
import AuthnKit.Foundation.Consult

/-!
# AuthnKit — the authenticator chain and the gateway

`src/authenticator.rs`, `src/gateway.rs` and `src/builder.rs`. An authenticator is an
asynchronous method, so everything is written for an arbitrary monad `m` of effects; an
`async fn` that returns a `Result` is an `ExceptT AuthError m`.
-/

namespace AuthnKit

variable {m : Type → Type} {U S : Type}

/-- Everything an authenticator gets to decide with. -/
structure AuthContext (S : Type) where
  request : AuthRequest
  credential : Credential
  scope : S

/-- One authentication mechanism. It resolves a principal, declines, or fails; it cannot
declare a request anonymous. -/
structure Authenticator (m : Type → Type) (U S : Type) where
  name : String
  authenticate : AuthContext S → ExceptT AuthError m (Verdict U)

/-- How a chain treats a request whose scope is public. -/
inductive PublicScopePolicy where
  /-- Attempt authentication when a credential is presented. -/
  | optional
  /-- Consult no authenticator. -/
  | alwaysAnonymous
  deriving DecidableEq

/-- Whether a request to a public scope is answered without consulting anyone. -/
def PublicScopePolicy.skips : PublicScopePolicy → Credential → Bool
  | alwaysAnonymous, _ => true
  | optional, credential => credential.isNone

/-- An ordered list of authenticators, consulted until one claims the request. -/
structure AuthChain (m : Type → Type) (U S : Type) where
  authenticators : List (Authenticator m U S) := []
  publicScopePolicy : PublicScopePolicy := .optional

namespace AuthChain

def new : AuthChain m U S := {}

/-- Appends an authenticator. Order is significant. -/
def with_ (c : AuthChain m U S) (a : Authenticator m U S) : AuthChain m U S :=
  { c with authenticators := c.authenticators ++ [a] }

def withPublicScopePolicy (c : AuthChain m U S) (policy : PublicScopePolicy) : AuthChain m U S :=
  { c with publicScopePolicy := policy }

def names (c : AuthChain m U S) : List String := c.authenticators.map (·.name)

def isEmpty (c : AuthChain m U S) : Bool := c.authenticators.isEmpty

variable [Monad m]

/-- The loop of `authenticate`: the first verdict that claims the request. A failure leaves
the loop at once. -/
def consult (ctx : AuthContext S) :
    List (Authenticator m U S) → ExceptT AuthError m (Verdict U)
  | [] => return .notApplicable
  | authenticator :: rest => do
    -- an error propagates from here, so nobody after it is asked
    match ← authenticator.authenticate ctx with
    | .notApplicable => consult ctx rest
    | .authenticated user => return .authenticated user

/-! ### Asking in another order

Whether the order of registration matters is a question about the loop alone: an authenticator that
declines at once and without effect can be moved anywhere, or left out. -/

section Order

/-- The loop, one authenticator at a time: its verdict is the loop's, unless it declines. -/
theorem consult_cons (ctx : AuthContext S) (a : Authenticator m U S)
    (rest : List (Authenticator m U S)) :
    consult ctx (a :: rest) = a.authenticate ctx >>= fun verdict => match verdict with
      | .notApplicable => consult ctx rest
      | .authenticated user => pure (.authenticated user) := rfl

variable [LawfulMonad m]

/-- An authenticator that declines at once, without any effect. -/
def DeclinesPurely (ctx : AuthContext S) (a : Authenticator m U S) : Prop :=
  a.authenticate ctx = pure .notApplicable

/-- An authenticator that declines at once leaves everything to those after it. -/
theorem consult_cons_of_declines {ctx : AuthContext S} {a : Authenticator m U S}
    (h : DeclinesPurely ctx a) (rest : List (Authenticator m U S)) :
    consult ctx (a :: rest) = consult ctx rest := by
  rw [consult_cons, h, pure_bind]

/-- Those that decline are skipped, however many stand in front. Induction on them. -/
theorem consult_append_of_declines {ctx : AuthContext S} {before : List (Authenticator m U S)}
    (h : ∀ a ∈ before, DeclinesPurely ctx a) (rest : List (Authenticator m U S)) :
    consult ctx (before ++ rest) = consult ctx rest := by
  induction before with
  | nil => rfl
  | cons a before ih =>
    rw [List.cons_append, consult_cons_of_declines (h a List.mem_cons_self)]
    exact ih fun b hb => h b (List.mem_cons_of_mem a hb)

/-- An authenticator that decides leaves nothing to those after it, whether it succeeds or fails. -/
theorem consult_cons_of_resolves {ctx : AuthContext S} {a : Authenticator m U S}
    {p : ExceptT AuthError m U} (h : a.authenticate ctx = .authenticated <$> p)
    (rest : List (Authenticator m U S)) :
    consult ctx (a :: rest) = .authenticated <$> p := by
  rw [consult_cons, h, map_eq_pure_bind, bind_assoc]
  simp only [pure_bind]

/-- **Order is irrelevant where at most one authenticator does not decline**: of every two, one
declines without effect. Induction on the permutation; a swap skips the one that declines. -/
theorem consult_perm {ctx : AuthContext S} {l l' : List (Authenticator m U S)} (hl : l.Perm l')
    (h : l.Pairwise fun a b => DeclinesPurely ctx a ∨ DeclinesPurely ctx b) :
    consult ctx l = consult ctx l' := by
  induction hl with
  | nil => rfl
  | cons a _ ih =>
    rw [consult_cons, consult_cons, ih (List.pairwise_cons.mp h).2]
  | swap a b rest =>
    -- whichever of the two declines is skipped on both sides
    have hba : DeclinesPurely ctx b ∨ DeclinesPurely ctx a :=
      (List.pairwise_cons.mp h).1 a List.mem_cons_self
    rcases hba with hb | ha
    · have hskip : consult ctx (b :: rest) = consult ctx rest := consult_cons_of_declines hb rest
      rw [consult_cons_of_declines hb, consult_cons ctx a rest, consult_cons ctx a (b :: rest),
        hskip]
    · have hskip : consult ctx (a :: rest) = consult ctx rest := consult_cons_of_declines ha rest
      rw [consult_cons_of_declines ha, consult_cons ctx b rest, consult_cons ctx b (a :: rest),
        hskip]
  | trans h₁ _ ih₁ ih₂ =>
    have hsymm : ∀ {a b : Authenticator m U S},
        DeclinesPurely ctx a ∨ DeclinesPurely ctx b → DeclinesPurely ctx b ∨ DeclinesPurely ctx a :=
      Or.symm
    rw [ih₁ h, ih₂ ((h₁.pairwise_iff hsymm).mp h)]

/-- Where some authenticator decides, and each one that does not decline decides by a computation in
`P`, so does the chain: the first of them that does not decline is reached. -/
theorem consult_resolves {ctx : AuthContext S} {P : ExceptT AuthError m U → Prop}
    {l : List (Authenticator m U S)}
    (h : ∀ a ∈ l, DeclinesPurely ctx a ∨ ∃ p, P p ∧ a.authenticate ctx = .authenticated <$> p)
    (hsome : ∃ a ∈ l, ∃ p, P p ∧ a.authenticate ctx = .authenticated <$> p) :
    ∃ p, P p ∧ consult ctx l = .authenticated <$> p := by
  induction l with
  | nil => obtain ⟨a, ha, _⟩ := hsome; exact absurd ha List.not_mem_nil
  | cons a rest ih =>
    rcases h a List.mem_cons_self with hdecl | ⟨p, hp, hres⟩
    · -- the one that decides is the first after all, or is among the rest
      obtain ⟨b, hb, p, hp, hres⟩ := hsome
      rcases List.mem_cons.mp hb with rfl | hb
      · exact ⟨p, hp, consult_cons_of_resolves hres rest⟩
      · rw [consult_cons_of_declines hdecl]
        exact ih (fun c hc => h c (List.mem_cons_of_mem a hc)) ⟨b, hb, p, hp, hres⟩
    · exact ⟨p, hp, consult_cons_of_resolves hres rest⟩

end Order

variable [AuthScope S]

def authenticate (c : AuthChain m U S) (request : AuthRequest) (credential : Credential)
    (scope : S) : ExceptT AuthError m (Outcome U) := do
  let isPublic := AuthScope.isPublic scope
  -- only the credential is looked at: a cookie does not count here
  if isPublic && c.publicScopePolicy.skips credential then
    return .anonymous
  match ← consult ⟨request, credential, scope⟩ c.authenticators with
  | .authenticated user => return .authenticated user
  -- on a public scope an unclaimed request is a visitor
  | .notApplicable => return if isPublic then .anonymous else .notApplicable

section Outcomes

variable {c : AuthChain m U S} {request : AuthRequest} {credential : Credential} {scope : S}

/-- A chain that skips its authenticators asks no one: the request is anonymous, and nothing is
performed for it. -/
theorem authenticate_of_skips
    (hskip : (AuthScope.isPublic scope && c.publicScopePolicy.skips credential) = true) :
    c.authenticate request credential scope = pure .anonymous := by
  unfold authenticate
  simp only [hskip, if_true]

variable [LawfulMonad m]

/-- A chain whose loop resolves `p`, and that is consulted at all, ends with what `p` ends with. -/
theorem authenticate_of_consult
    (hskip : (AuthScope.isPublic scope && c.publicScopePolicy.skips credential) = false)
    {p : ExceptT AuthError m U}
    (h : consult ⟨request, credential, scope⟩ c.authenticators = .authenticated <$> p) :
    c.authenticate request credential scope = Outcome.authenticated <$> p := by
  unfold authenticate
  simp only [hskip, Bool.false_eq_true, if_false, h, bind_map_left]
  exact (map_eq_pure_bind _ _).symm

/-- A public scope that no one claims is anonymous, whether or not anybody was asked. -/
theorem authenticate_of_declined (hpublic : AuthScope.isPublic scope = true)
    (h : consult ⟨request, credential, scope⟩ c.authenticators = pure .notApplicable) :
    c.authenticate request credential scope = pure .anonymous := by
  unfold authenticate
  rw [h, hpublic]
  simp

end Outcomes

end AuthChain

/-! ## The gateway

The chain's outcome becomes what an application sees: a user, nobody on a public scope, or a
failure. An unclaimed request on a protected scope fails here. -/

/-- Ties a scope resolver to a chain. -/
structure AuthGateway (m : Type → Type) (U S : Type) where
  scopes : AuthRequest → S
  chain : AuthChain m U S

namespace AuthGateway

variable [Monad m] [AuthScope S]

/-- What an unclaimed request on a protected scope is told. -/
def unclaimed (credential : Credential) (scope : S) : AuthError :=
  .unauthenticated ("no authenticator claimed the request (scheme: "
    ++ credential.scheme.getD "none" ++ ", scope: " ++ AuthScope.display scope ++ ")")

/-- `some user` is authenticated, `none` a public scope with no identity. -/
def authenticateWith (g : AuthGateway m U S) (request : AuthRequest) (credential : Credential) :
    ExceptT AuthError m (Option U) := do
  let scope := g.scopes request
  match ← g.chain.authenticate request credential scope with
  | .authenticated user => return some user
  | .anonymous => return none
  | .notApplicable => throw (unclaimed credential scope)

end AuthGateway

/-! ## The builder -/

/-- Assembles a gateway from a scope resolver and a set of authenticators. -/
structure AuthnBuilder (m : Type → Type) (U S : Type) where
  scopes : AuthRequest → S
  chain : AuthChain m U S := .new

namespace AuthnBuilder

def with_ (b : AuthnBuilder m U S) (a : Authenticator m U S) : AuthnBuilder m U S :=
  { b with chain := b.chain.with_ a }

/-- Appends an authenticator only when `condition` holds. -/
def withIf (b : AuthnBuilder m U S) (condition : Bool) (a : Authenticator m U S) :
    AuthnBuilder m U S :=
  if condition then b.with_ a else b

def publicScopePolicy (b : AuthnBuilder m U S) (policy : PublicScopePolicy) :
    AuthnBuilder m U S :=
  { b with chain := b.chain.withPublicScopePolicy policy }

def build (b : AuthnBuilder m U S) : Except AuthError (AuthGateway m U S) :=
  if b.chain.isEmpty then
    .error (.internal ("no authenticators registered: the gateway would refuse every "
      ++ "request on a protected scope"))
  else .ok ⟨b.scopes, b.chain⟩

end AuthnBuilder

end AuthnKit
