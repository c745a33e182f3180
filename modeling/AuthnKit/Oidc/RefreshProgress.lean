import AuthnKit.Foundation.Mutex
import AuthnKit.Oidc.RefreshSafety

/-!
# AuthnKit — a refresh never wedges the provider

`src/oidc/provider.rs` takes `refresh_lock` in the middle of an `async fn` and keeps it across the
discovery request. What is left of a call is dropped wherever its caller gives up, and the request
may fail; neither may leave the lock behind.

* **`refreshMutex`** — every call gives `refresh_lock` back before it returns, on each of its ways
  out, and a dropped guard releases it.
* **`calls_finish`** — from every reachable state, whatever the issuer answers from there on, the
  calls under way can all return without another one being dropped and without time passing.
-/

namespace AuthnKit

open Interleave

namespace ProviderOp

def IsLock : ProviderOp → Prop
  | lock => True
  | _ => False

def IsUnlock : ProviderOp → Prop
  | unlock => True
  | _ => False

end ProviderOp

/-- How what is outside this process answers a call, in the view it is asked in. -/
structure Network where
  discoverAsync : ℕ → ProviderView → String → Except DiscoveryError ProviderMetadata
  idTokenClaims : ℕ → ProviderView → IdToken → OidcClient → NonceVerifier →
    Except ClaimsVerificationError IdTokenClaims
  requestAsync : ℕ → ProviderView → TokenRequest → Except RequestTokenError TokenResponse

/-- The answer to an operation: the snapshot and the clock as they are, the rest from the
network. -/
def Network.answer (n : Network) (i : ℕ) (v : ProviderView) : (op : ProviderOp) → op.Answer
  | .read => v.world.state
  | .write _ => ()
  | .lock => ()
  | .unlock => ()
  | .instantNow => v.world.now
  | .discoverStart _ => ()
  | .discoverAwait issuer => n.discoverAsync i v issuer
  | .idTokenClaims token client nonce => n.idTokenClaims i v token client nonce
  | .requestAsync request => n.requestAsync i v request

namespace ProviderService

variable (c : ProviderService)

/-! ## The calls are bracketed

Every way out of the locked part gives the lock back, also the failing ones. This is where the
source's guard is dropped. -/

/-- The calls as programs over one lock; the flag says whether it is held. -/
abbrev Bracketed {α : Type} (held : Bool) (p : ProviderProg α) : Prop :=
  Brackets ProviderOp.IsLock ProviderOp.IsUnlock held p

/-- An operation other than taking the lock and giving it back leaves the bracket as it is. -/
theorem bracketed_call {α : Type} {held : Bool} {op : ProviderOp} {k : op.Answer → ProviderProg α}
    (hlock : ¬ op.IsLock) (hunlock : ¬ op.IsUnlock) (hk : ∀ r, Bracketed held (k r)) :
    Bracketed held (.call op k) :=
  .other hlock hunlock hk

theorem bracketed_leave (result : Except AuthError Unit) : Bracketed true (leave result) :=
  .unlock trivial fun _ => .ret result

theorem bracketed_fetch : Bracketed true c.fetch := by
  refine bracketed_call id id fun _ => bracketed_call id id fun answer => ?_
  cases answer with
  | error e => exact bracketed_leave _
  | ok metadata =>
    exact bracketed_call id id fun _ => bracketed_call id id fun _ => bracketed_leave _

theorem bracketed_locked (observed : Arc ProviderState) : Bracketed true (c.locked observed) := by
  refine bracketed_call id id fun current => ?_
  split
  · exact bracketed_leave _
  · refine bracketed_call id id fun now => ?_
    split
    · exact bracketed_leave _
    · exact c.bracketed_fetch

/-- A refresh takes the lock at most once, and gives it back. -/
theorem bracketed_refresh : Bracketed false c.refresh := by
  refine bracketed_call id id fun observed => bracketed_call id id fun now => ?_
  split
  · exact .ret _
  · exact .lock trivial fun _ => c.bracketed_locked observed

theorem bracketed_attempt {idToken : IdToken} {nonce : NonceCheck}
    {k : Except ClaimsVerificationError IdTokenClaims →
      ProviderProg (Except AuthError (Option IdentityClaims))} (hk : ∀ a, Bracketed false (k a)) :
    Bracketed false (c.attempt idToken nonce k) :=
  bracketed_call id id fun _ => bracketed_call id id hk

/-- **Every call gives the lock back**, on each of its ways out. -/
theorem bracketed_body (call : ProviderCall) : Bracketed false (c.body call) := by
  rw [body_eq]
  cases call with
  | refresh => exact c.bracketed_refresh.bind fun _ => .ret _
  | verifyIdToken token nonce =>
    simp only
    cases c.lib.parseIdToken token with
    | error e => exact .ret _
    | ok idToken =>
      refine c.bracketed_attempt fun first => ?_
      cases first with
      | ok claims => exact .ret _
      | error error =>
        simp only
        split
        · exact .ret _
        · refine c.bracketed_refresh.bind fun result => ?_
          cases result with
          | error e => exact .ret _
          | ok u => exact c.bracketed_attempt fun _ => .ret _

/-! ## The lock of the machine

The provider's lock as an instance of the general one. Everything but the lock is answered by the
network or at once. -/

/-- `refresh_lock`, in the runs of the calls. -/
def refreshMutex : Mutex c.machine where
  IsLock := ProviderOp.IsLock
  IsUnlock := ProviderOp.IsUnlock
  holder := ProviderWorld.holder
  distinct op hlock hunlock := by cases op <;> first | exact hlock | exact hunlock
  init _ h := h.2.1
  body := c.bracketed_body
  exec_lock i v op a w h hlock := by
    cases op with
    | lock =>
      obtain ⟨hfree, rfl⟩ := h
      exact ⟨hfree, rfl⟩
    | _ => exact hlock.elim
  exec_unlock i v op a w h hunlock := by
    cases op with
    | unlock => rw [show w = _ from h]
    | _ => exact hunlock.elim
  exec_other i v op a w h hlock hunlock := by
    cases op with
    | lock => exact absurd trivial hlock
    | unlock => exact absurd trivial hunlock
    | read => rw [h.2]
    | instantNow => rw [h.2]
    | write state => rw [show w = _ from h]
    | discoverStart issuer => rw [show w = _ from h]
    | discoverAwait issuer => rw [show w = _ from h]
    | idTokenClaims token client nonce => rw [show w = _ from h]
    | requestAsync request => rw [show w = _ from h]
  abandon i v op w h := by rw [h.2]
  env w w' h := by rw [h.2]

/-- Nothing but the lock is ever waited for in vain. -/
theorem refreshMutex_serves (n : Network) : c.refreshMutex.Serves n.answer := by
  intro i v op hfree
  cases op with
  | lock => exact ⟨_, hfree trivial, rfl⟩
  | read => exact ⟨_, rfl, rfl⟩
  | instantNow => exact ⟨_, rfl, rfl⟩
  | write state => exact ⟨_, rfl⟩
  | unlock => exact ⟨_, rfl⟩
  | discoverStart issuer => exact ⟨_, rfl⟩
  | discoverAwait issuer => exact ⟨_, rfl⟩
  | idTokenClaims token client nonce => exact ⟨_, rfl⟩
  | requestAsync request => exact ⟨_, rfl⟩

/-! ## Every call can finish

From the bracket and the lock: whatever has happened, those under way can be brought to their end.
-/

/-- No move takes time, so the runs that finish the calls do so at once. -/
theorem now_of_moves {n : Network} {s s' : ProviderRun}
    (h : Relation.ReflTransGen (Moves c.machine n.answer) s s') :
    s'.view.world.now = s.view.world.now := by
  induction h with
  | refl => rfl
  | tail _ hmove ih =>
    cases hmove with
    | move i hi w hx => exact (ProviderWorld.now_of_exec hx).trans ih

/-- The lock is held by a call that still has operations to perform, and every call under way can
return. -/
structure Unwedged (n : Network) (s : ProviderRun) : Prop where
  /-- A call that has returned, or was dropped, has left no lock behind. -/
  holder : ∀ i, s.view.world.holder = some i → ∃ call op k, s.tasks i = .running call (.call op k)
  finish : ∃ s', Relation.ReflTransGen (Moves c.machine n.answer) s s'
    ∧ s'.view.world.holder = none ∧ s'.view.world.now = s.view.world.now
    ∧ ∀ i call p, s.tasks i = .running call p → ∃ res, s'.Returned i call res

/-- **No interleaving wedges the provider**: after any number of calls, finished, failed, dropped or
still under way, those under way can all return, whatever the network answers. -/
theorem calls_finish (n : Network) {s : ProviderRun} (hs : Reachable c.machine s) :
    c.Unwedged n s := by
  refine ⟨?_, ?_⟩
  · intro i hi
    obtain ⟨call, op, k, ht, -⟩ := (hs.brackets c.refreshMutex).holder_runs hi
    exact ⟨call, op, k, ht⟩
  · obtain ⟨s', hmoves, hnone, hdone⟩ := hs.drains c.refreshMutex (c.refreshMutex_serves n)
    exact ⟨s', hmoves, hnone, c.now_of_moves hmoves, hdone⟩

/-- An issuer that cannot be reached. -/
def unreachable : Network where
  discoverAsync _ _ _ := .error (.request "connection refused")
  idTokenClaims _ _ _ _ _ := .error (.signatureVerification .noMatchingKey "")
  requestAsync _ _ _ := .error (.request "connection refused")

/-- **A call waits for the lock, and the call that holds it is dropped** while it waits for
discovery. The one that waits can return all the same. -/
theorem dropped_fetch_unwedged : ∃ s : ProviderRun, s.tasks 0 = .abandoned .refresh
    ∧ (∃ k, s.tasks 1 = .running .refresh (.call .lock k)) ∧ bareProvider.Unwedged unreachable s := by
  let free : ProviderWorld := ⟨bareSnapshot, none, [], second 100⟩
  let held : ProviderWorld := ⟨bareSnapshot, some 0, [0], second 100⟩
  have h₀ : Reachable bareProvider.machine (⟨⟨free, []⟩, fun _ => .idle⟩ : ProviderRun) :=
    .init _ ⟨by decide, rfl, rfl⟩
  -- as far as the answer it waits for
  obtain ⟨v, k, hlone, hworld⟩ : ∃ v k, Alone bareProvider.machine 0 .refresh ⟨free, []⟩
      (bareProvider.body .refresh) v (.call (.discoverAwait "https://issuer") k)
        ∧ v.world = held :=
    ⟨_, _, .act bareSnapshot _ ⟨rfl, rfl⟩ (.act (second 100) _ ⟨rfl, rfl⟩
      (.act () _ ⟨rfl, rfl⟩ (.act bareSnapshot _ ⟨rfl, rfl⟩ (.act (second 100) _ ⟨rfl, rfl⟩
        (.act () _ rfl (.refl _ _)))))), rfl⟩
  obtain ⟨s₁, hs₁, hview₁, htask₁, hothers₁⟩ := h₀.submit rfl hlone
  -- as far as the lock
  obtain ⟨v', k', hwaits⟩ : ∃ v' k', Alone bareProvider.machine 1 .refresh s₁.view
      (bareProvider.body .refresh) v' (.call .lock k') := by
    rw [hview₁]
    obtain ⟨world, history⟩ := v
    subst hworld
    exact ⟨_, _, .act bareSnapshot _ ⟨rfl, rfl⟩ (.act (second 100) _ ⟨rfl, rfl⟩ (.refl _ _))⟩
  obtain ⟨s₂, hs₂, -, htask₂, hothers₂⟩ := hs₁.submit (hothers₁ 1 (by decide)) hwaits
  have htask : s₂.tasks 0 = .running .refresh (.call (.discoverAwait "https://issuer") k) :=
    (hothers₂ 0 (by decide)).trans htask₁
  have hdropped := hs₂.step (.abandon 0 htask _ ⟨trivial, rfl⟩)
  exact ⟨_, s₂.move_self _ 0 _, ⟨k', (s₂.move_of_ne _ (by decide) _).trans htask₂⟩,
    bareProvider.calls_finish unreachable hdropped⟩

end ProviderService

end AuthnKit
