import AuthnKit.Adapters.Cookies
import AuthnKit.Adapters.Responses
import AuthnKit.Core.Authorization
import AuthnKit.Core.ChainDecision
import AuthnKit.Foundation.Prog

/-!
# AuthnKit — the gateway in front of a service

`AuthGateway::authenticate`, `authenticate` of `src/adapters/axum.rs` and the middleware of
`src/adapters/actix.rs`.

* **`ActixAuthnMiddleware.call`** — a request on its way to the service.
* **`run_authenticate`** — what the gateway asks for.
-/

namespace AuthnKit

variable {m : Type → Type} {U S E B Err : Type}

namespace AuthGateway

/-- The scope of a request, without authenticating it. -/
def scopeOf (g : AuthGateway m U S) (request : AuthRequest) : S := g.scopes request

def authenticatorNames (g : AuthGateway m U S) : List String := g.chain.names

/-- As `authenticateWith`, with the credential of the `Authorization` header. -/
def authenticate [Monad m] [AuthScope S] (g : AuthGateway m U S) (request : AuthRequest) :
    ExceptT AuthError m (Option U) :=
  g.authenticateWith request (Credential.fromRequest request)

end AuthGateway

/-- From a middleware or an extractor of axum. -/
def Axum.authenticate [Monad m] [AuthScope S] (g : AuthGateway m U S) (parts : HttpParts) :
    ExceptT AuthError m (Option U) :=
  g.authenticate (Axum.request parts)

/-! ## actix -/

/-- What travels with a request: a principal, and all the rest. -/
structure Extensions (U E : Type) where
  principal : Option U
  rest : E

def Extensions.insert (extensions : Extensions U E) (user : U) : Extensions U E :=
  { extensions with principal := some user }

structure ServiceRequest (U E : Type) where
  parts : HttpParts
  extensions : Extensions U E

structure ActixAuthn (m : Type → Type) (U S E : Type) where
  gateway : AuthGateway m U S
  extensions : Option (U → Extensions U E → Extensions U E)

structure ActixAuthnMiddleware (m : Type → Type) (U S E B Err : Type) where
  service : ServiceRequest U E → m (Except Err B)
  gateway : AuthGateway m U S
  extensions : Option (U → Extensions U E → Extensions U E)

namespace ActixAuthn

def new (gateway : AuthGateway m U S) : ActixAuthn m U S E := ⟨gateway, none⟩

/-- Runs `hook` after a successful authentication. -/
def withExtensions (a : ActixAuthn m U S E) (hook : U → Extensions U E → Extensions U E) :
    ActixAuthn m U S E :=
  { a with extensions := some hook }

def newTransform (a : ActixAuthn m U S E) (service : ServiceRequest U E → m (Except Err B)) :
    ActixAuthnMiddleware m U S E B Err :=
  ⟨service, a.gateway, a.extensions⟩

end ActixAuthn

namespace ActixAuthnMiddleware

/-- The request the service gets for an authenticated principal. -/
def identified (hook : Option (U → Extensions U E → Extensions U E)) (user : U)
    (request : ServiceRequest U E) : ServiceRequest U E :=
  let extensions := match hook with
    | some hook => hook user request.extensions
    | none => request.extensions
  -- after the hook, which cannot replace the principal
  { request with extensions := extensions.insert user }

/-- A request passes on to the service, or is answered here. -/
def call [Monad m] [AuthScope S] (cookieParser : Actix.CookieParser)
    (a : ActixAuthnMiddleware m U S E B Err) (request : ServiceRequest U E) :
    m (Except Err (B ⊕ Actix.Response)) := do
  match ← (a.gateway.authenticate (Actix.request cookieParser request.parts)).run with
  | .ok (some user) => return (← a.service (identified a.extensions user request)).map .inl
  -- a public scope with no identity: no principal is inserted
  | .ok none => return (← a.service request).map .inl
  | .error error => return .ok (.inr (Actix.errorToResponse error))

end ActixAuthnMiddleware

/-! ## As programs

Over the operations of a run, the gateway is a program as well: at most one consultation of its
chain, and a conclusion without effects. -/

section Programs

variable {Op : Type} {Ans : Op → Type} [AuthScope S]

/-- **The gateway asks its chain once**, or not at all, and concludes from its answer alone. -/
theorem AuthGateway.run_authenticate (g : AuthGateway (Prog Op Ans) U S) (request : AuthRequest) :
    (g.authenticate request).run
      = if AuthScope.isPublic (g.scopes request)
            && g.chain.publicScopePolicy.skips (Credential.fromRequest request) then .ret (.ok none)
        else (AuthChain.consult ⟨request, Credential.fromRequest request, g.scopes request⟩
            g.chain.authenticators).run
          >>= fun answer => .ret (conclude (Credential.fromRequest request) (g.scopes request) answer)
    := by
  unfold AuthGateway.authenticate AuthGateway.authenticateWith AuthChain.authenticate
  by_cases hskip : (AuthScope.isPublic (g.scopes request)
      && g.chain.publicScopePolicy.skips (Credential.fromRequest request)) = true
  · simp only [hskip, if_true]
    rfl
  · simp only [hskip, Bool.false_eq_true, if_false]
    rw [ExceptT.run_bind, ExceptT.run_bind, bind_assoc]
    congr 1
    funext answer
    -- the outcome of the chain, and what the gateway makes of it
    cases answer with
    | error e => rfl
    | ok verdict =>
      cases verdict with
      | authenticated user => rfl
      | notApplicable =>
        unfold conclude
        cases AuthScope.isPublic (g.scopes request) <;> rfl

end Programs

end AuthnKit
