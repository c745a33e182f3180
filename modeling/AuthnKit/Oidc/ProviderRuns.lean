import AuthnKit.Foundation.Interleave
import AuthnKit.Oidc.Provider

/-!
# AuthnKit — calls interleaved over one provider

Any number of calls to `refresh` and `verify_id_token`, interleaved at every access to the
snapshot, the clock, the refresh lock and the network. Discovery is two operations, so that it
can be in flight while others move; it answers arbitrarily. A call may be dropped where it
awaits, which releases what it holds.

* **`ProviderWorld.exec`** — what each operation does to the shared provider.
* **`ProviderService.machine`** — the calls, interleaved.
* **`run_refresh`**, **`body_eq`** — the calls, unfolded to their operations.
-/

namespace AuthnKit

open Interleave

/-! ## Operations

What the provider does besides computing, each as one operation: reading and writing the snapshot,
the lock, the clock, discovery as a request and its answer, and the library's verification. -/

inductive ProviderOp where
  | read
  | write (state : ProviderState)
  | lock
  | unlock
  | instantNow
  | discoverStart (issuer : String)
  | discoverAwait (issuer : String)
  | idTokenClaims (token : IdToken) (client : OidcClient) (nonce : NonceVerifier)
  | requestAsync (request : TokenRequest)

abbrev ProviderOp.Answer : ProviderOp → Type
  | read => Arc ProviderState
  | write _ => Unit
  | lock => Unit
  | unlock => Unit
  | instantNow => Instant
  | discoverStart _ => Unit
  | discoverAwait _ => Except DiscoveryError ProviderMetadata
  | idTokenClaims _ _ _ => Except ClaimsVerificationError IdTokenClaims
  | requestAsync _ => Except RequestTokenError TokenResponse

abbrev ProviderProg := Prog ProviderOp ProviderOp.Answer

namespace ProviderProg

def ask (op : ProviderOp) : ProviderProg op.Answer := Prog.perform op

def ops : ProviderOps ProviderProg where
  read := ask .read
  write state := ask (.write state)
  lock := ask .lock
  unlock := ask .unlock
  instantNow := ask .instantNow
  discoverAsync issuer := ask (.discoverStart issuer) >>= fun _ => ask (.discoverAwait issuer)
  idTokenClaims token client nonce := ask (.idTokenClaims token client nonce)
  requestAsync request := ask (.requestAsync request)

end ProviderProg

/-! ## The shared provider

All calls share one snapshot and one lock. A request for discovery and its answer are two
operations, so that a call can be dropped in between. -/

structure ProviderWorld where
  /-- The snapshot; its address counts the stores so far, so a new one is never an old one. -/
  state : Arc ProviderState
  /-- Who holds `refresh_lock`. -/
  holder : Option ℕ
  /-- The calls whose discovery request has been sent and not answered. -/
  inFlight : List ℕ
  now : Instant

namespace ProviderWorld

/-- What an operation of task `i` answers and leaves. -/
def exec (i : ℕ) (w : ProviderWorld) : (op : ProviderOp) → op.Answer → ProviderWorld → Prop
  | .read, state, w' => state = w.state ∧ w' = w
  | .write state, _, w' => w' = { w with state := ⟨w.state.ptr + 1, state⟩ }
  | .lock, _, w' => w.holder = none ∧ w' = { w with holder := some i }
  | .unlock, _, w' => w' = { w with holder := none }
  | .instantNow, now, w' => now = w.now ∧ w' = w
  | .discoverStart _, _, w' => w' = { w with inFlight := i :: w.inFlight }
  | .discoverAwait _, _, w' => w' = { w with inFlight := w.inFlight.erase i }
  | .idTokenClaims _ _ _, _, w' => w' = w
  | .requestAsync _, _, w' => w' = w

/-- The operations a call may be dropped at: where it awaits. -/
def Awaits : ProviderOp → Prop
  | .lock | .discoverAwait _ | .requestAsync _ => True
  | _ => False

/-- Task `i` is dropped: its guard releases the lock, and its request is given up. -/
def abandon (i : ℕ) (w : ProviderWorld) (op : ProviderOp) (w' : ProviderWorld) : Prop :=
  Awaits op ∧ w' = { w with
    holder := if w.holder = some i then none else w.holder
    inFlight := w.inFlight.erase i }

/-- Time passes. -/
def elapse (w w' : ProviderWorld) : Prop := w.now ≤ w'.now ∧ w' = { w with now := w'.now }

variable {i : ℕ} {w w' : ProviderWorld} {op : ProviderOp} {a : op.Answer}

theorem now_of_exec (h : exec i w op a w') : w'.now = w.now := by
  cases op with
  | read => rw [h.2]
  | write state => rw [show w' = _ from h]
  | lock => rw [h.2]
  | unlock => rw [show w' = _ from h]
  | instantNow => rw [h.2]
  | discoverStart issuer => rw [show w' = _ from h]
  | discoverAwait issuer => rw [show w' = _ from h]
  | idTokenClaims token client nonce => rw [show w' = _ from h]
  | requestAsync request => rw [show w' = _ from h]

/-- **Only a write changes the snapshot**, to what is written, under a new address. -/
theorem state_of_exec (h : exec i w op a w') :
    w'.state = w.state ∨ ∃ state, op = .write state ∧ w'.state = ⟨w.state.ptr + 1, state⟩ := by
  cases op with
  | read => left; rw [h.2]
  | write state => right; exact ⟨state, rfl, by rw [show w' = _ from h]⟩
  | lock => left; rw [h.2]
  | unlock => left; rw [show w' = _ from h]
  | instantNow => left; rw [h.2]
  | discoverStart issuer => left; rw [show w' = _ from h]
  | discoverAwait issuer => left; rw [show w' = _ from h]
  | idTokenClaims token client nonce => left; rw [show w' = _ from h]
  | requestAsync request => left; rw [show w' = _ from h]

end ProviderWorld

inductive ProviderCall where
  | refresh
  | verifyIdToken (token : String) (nonce : NonceCheck)

abbrev ProviderEvent := Event ProviderCall ProviderOp ProviderOp.Answer ProviderWorld

abbrev ProviderView := View ProviderCall ProviderOp ProviderOp.Answer ProviderWorld

abbrev ProviderRun :=
  State ProviderCall ProviderOp ProviderOp.Answer ProviderWorld
    (Except AuthError (Option IdentityClaims))

/-- How a provider is configured. -/
structure ProviderService where
  config : OidcConfig
  lib : OpenIdConnect

namespace ProviderService

open AuthError

variable (c : ProviderService)

def provider : OidcProvider ProviderProg := ⟨c.config, c.lib, ProviderProg.ops⟩

def body : ProviderCall → ProviderProg (Except AuthError (Option IdentityClaims))
  | .refresh => (do
      c.provider.refresh
      return none : ExceptT AuthError ProviderProg (Option IdentityClaims)).run
  | .verifyIdToken token nonce => (do
      let claims ← c.provider.verifyIdToken token nonce
      return some claims : ExceptT AuthError ProviderProg (Option IdentityClaims)).run

/-- Calls interleaved over the provider, which holds a snapshot from start-up on. -/
def machine : Machine ProviderCall ProviderOp ProviderOp.Answer ProviderWorld
    (Except AuthError (Option IdentityClaims)) where
  body := c.body
  init w := w.state.value.fetchedAt ≤ w.now ∧ w.holder = none ∧ w.inFlight = []
  exec i v op a w := ProviderWorld.exec i v.world op a w
  abandon i v op w := ProviderWorld.abandon i v.world op w
  env w w' := ProviderWorld.elapse w w'

/-- Time does not go back, and no address of a snapshot is used again. -/
theorem machine_advances : c.machine.Advances
    fun w w' => w.now ≤ w'.now ∧ w.state.ptr ≤ w'.state.ptr where
  refl _ := ⟨Nat.le_refl _, Nat.le_refl _⟩
  trans _ _ _ h₁ h₂ := ⟨Nat.le_trans h₁.1 h₂.1, Nat.le_trans h₁.2 h₂.2⟩
  exec i v op a w h := by
    have hx : ProviderWorld.exec i v.world op a w := h
    refine ⟨Nat.le_of_eq (congrArg Instant.nanos (ProviderWorld.now_of_exec hx).symm), ?_⟩
    rcases ProviderWorld.state_of_exec hx with hstate | ⟨state, _, hstate⟩
    · rw [hstate]
    · rw [hstate]
      exact Nat.le_succ _
  abandon _ _ _ _ h := by
    rw [h.2]
    exact ⟨Nat.le_refl _, Nat.le_refl _⟩
  env _ _ h := by
    refine ⟨h.1, ?_⟩
    rw [h.2]

/-! ## The calls as operations

The source's functions, unfolded into one program over these operations, function by function. -/

/-- A snapshot fetched so recently that there is nothing to do. -/
def Fresh (state : ProviderState) (now : Instant) : Prop :=
  now.since state.fetchedAt < c.config.minRefreshInterval

instance (state : ProviderState) (now : Instant) : Decidable (c.Fresh state now) :=
  inferInstanceAs (Decidable (_ < _))

def stateOf (metadata : ProviderMetadata) (now : Instant) : ProviderState :=
  ⟨metadata, buildClient metadata c.config.clientId c.config.clientSecret c.config.redirectUrl, now⟩

def leave (result : Except AuthError Unit) : ProviderProg (Except AuthError Unit) :=
  .call .unlock fun _ => .ret result

def fetch : ProviderProg (Except AuthError Unit) :=
  .call (.discoverStart c.config.issuerUrl) fun _ =>
  .call (.discoverAwait c.config.issuerUrl) fun answer => match answer with
    | .error e => leave (.error e.toAuthError)
    | .ok metadata => .call .instantNow fun now =>
        .call (.write (c.stateOf metadata now)) fun _ => leave (.ok ())

def locked (observed : Arc ProviderState) : ProviderProg (Except AuthError Unit) :=
  .call .read fun current =>
    if observed.ptr ≠ current.ptr then leave (.ok ())
    else .call .instantNow fun now =>
      if c.Fresh current.value now then leave (.ok ()) else c.fetch

def refresh : ProviderProg (Except AuthError Unit) :=
  .call .read fun observed => .call .instantNow fun now =>
    if c.Fresh observed.value now then .ret (.ok ())
    else .call .lock fun _ => c.locked observed

theorem run_snapshot_bind {α : Type} (f : Arc ProviderState → ExceptT AuthError ProviderProg α) :
    ((liftM c.provider.snapshot : ExceptT AuthError ProviderProg _) >>= f).run
      = .call .read fun state => (f state).run := by
  rw [Prog.run_liftM_bind]
  rfl

/-- The age of a snapshot takes a reading of the clock. -/
theorem run_age_bind {α : Type} (state : ProviderState)
    (f : Duration → ExceptT AuthError ProviderProg α) :
    ((liftM (c.provider.age state) : ExceptT AuthError ProviderProg Duration) >>= f).run
      = .call .instantNow fun now => (f (now.since state.fetchedAt)).run := by
  rw [Prog.run_liftM_bind]
  rfl

theorem run_fetch_bind :
    (c.provider.fetchState >>= fun state => liftM (c.provider.store state)).run >>= leave
      = c.fetch := by
  unfold OidcProvider.fetchState fetch
  rw [ExceptT.run_bind, Prog.run_liftM_bind]
  refine Prog.call_congr fun _ => Prog.call_congr fun answer => ?_
  cases answer <;> rfl

/-- What is done under the lock, and the lock released after it. -/
theorem run_refreshLocked (observed : Arc ProviderState) :
    (c.provider.refreshLocked observed).run >>= leave = c.locked observed := by
  unfold OidcProvider.refreshLocked locked
  rw [run_snapshot_bind, Prog.call_bind]
  refine Prog.call_congr fun current => ?_
  by_cases hptr : observed.ptr ≠ current.ptr
  · rw [if_pos hptr, if_pos hptr]
    rfl
  · rw [if_neg hptr, if_neg hptr, run_age_bind, Prog.call_bind]
    refine Prog.call_congr fun now => ?_
    by_cases hfresh : c.Fresh current.value now
    · rw [if_pos hfresh, if_pos (show now.since current.value.fetchedAt
        < c.provider.config.minRefreshInterval from hfresh)]
      rfl
    · rw [if_neg hfresh, if_neg (show ¬ now.since current.value.fetchedAt
        < c.provider.config.minRefreshInterval from hfresh)]
      exact c.run_fetch_bind

/-- **`refresh`, unfolded**: a young snapshot is left alone, and otherwise the lock is taken. -/
theorem run_refresh : c.provider.refresh.run = c.refresh := by
  unfold OidcProvider.refresh refresh
  rw [run_snapshot_bind]
  refine Prog.call_congr fun observed => ?_
  rw [run_age_bind]
  refine Prog.call_congr fun now => ?_
  by_cases hfresh : c.Fresh observed.value now
  · rw [if_pos hfresh, if_pos (show now.since observed.value.fetchedAt
      < c.provider.config.minRefreshInterval from hfresh)]
    rfl
  · rw [if_neg hfresh, if_neg (show ¬ now.since observed.value.fetchedAt
      < c.provider.config.minRefreshInterval from hfresh)]
    rw [Prog.run_liftM_bind]
    refine Prog.call_congr fun _ => ?_
    exact (Prog.run_liftM_bind _ _).trans (c.run_refreshLocked observed)

def outcome : Except ClaimsVerificationError IdTokenClaims →
    Except AuthError (Option IdentityClaims)
  | .ok claims => .ok (some (identityFromIdTokenClaims claims))
  | .error e => .error e.toAuthError

/-- A verification with the keys of the current snapshot. -/
def attempt (idToken : IdToken) (nonce : NonceCheck)
    (k : Except ClaimsVerificationError IdTokenClaims →
      ProviderProg (Except AuthError (Option IdentityClaims))) :
    ProviderProg (Except AuthError (Option IdentityClaims)) :=
  .call .read fun state =>
    .call (.idTokenClaims idToken state.value.client (nonce.verifier c.lib)) k

/-- The second attempt, after a refresh. -/
theorem run_retry (idToken : IdToken) (nonce : NonceCheck) :
    ((do
        c.provider.refresh
        let state ← c.provider.snapshot
        match ← c.provider.verify idToken state.value.client nonce with
        | .ok claims => return identityFromIdTokenClaims claims
        | .error error => throw error.toAuthError : ExceptT AuthError ProviderProg IdentityClaims)
      >>= fun claims => pure (some claims)).run
      = c.refresh >>= fun result => match result with
        | .error e => .ret (.error e)
        | .ok () => c.attempt idToken nonce fun second => .ret (outcome second) := by
  rw [bind_assoc, ExceptT.run_bind, run_refresh]
  congr 1
  funext result
  cases result with
  | error e => rfl
  | ok u =>
    refine Prog.call_congr fun state => Prog.call_congr fun second => ?_
    cases second <;> rfl

/-- **The calls, unfolded**: a refresh, and a verification with its one retry. -/
theorem body_eq (call : ProviderCall) :
    c.body call = match call with
      | .refresh => c.refresh >>= fun result => .ret (result.map fun _ => none)
      | .verifyIdToken token nonce => match c.lib.parseIdToken token with
        | .error e => .ret (.error (.invalidCredential ("malformed id token: " ++ e)))
        | .ok idToken => c.attempt idToken nonce fun first =>
          match first with
          | .ok claims => .ret (outcome (.ok claims))
          | .error error =>
            if !isPossiblyStaleKeys error then .ret (outcome (.error error))
            else c.refresh >>= fun result => match result with
              | .error e => .ret (.error e)
              | .ok () => c.attempt idToken nonce fun second => .ret (outcome second) := by
  cases call with
  | refresh =>
    show (c.provider.refresh >>= fun _ => pure none).run = _
    rw [ExceptT.run_bind, run_refresh]
    simp only
    congr 1
    funext result
    cases result <;> rfl
  | verifyIdToken token nonce =>
    show (c.provider.verifyIdToken token nonce >>= fun claims => pure (some claims)).run = _
    unfold OidcProvider.verifyIdToken
    dsimp only
    rw [show c.provider.lib = c.lib from rfl]
    cases c.lib.parseIdToken token with
    | error e => rfl
    | ok idToken =>
      refine Prog.call_congr fun state => Prog.call_congr fun first => ?_
      cases first with
      | ok claims => rfl
      | error error =>
        simp only [Prog.bind, Function.comp_apply, ExceptT.bindCont]
        cases isPossiblyStaleKeys error with
        | false => rfl
        | true => exact c.run_retry idToken nonce

/-! ### Failures

What a call fails with is never the variant that sends a browser away. -/

theorem ends_leave {result : Except AuthError Unit} (h : Stays result) :
    Prog.Ends Stays (leave result) :=
  .call fun _ => .ret h

/-- A refresh that fails reports the discovery that failed. -/
theorem ends_refresh : Prog.Ends Stays c.refresh := by
  have hdiscovery : ∀ e : DiscoveryError, e.toAuthError.variant ≠ .redirect := by
    intro e
    cases e <;> exact fun h => nomatch h
  have hfetch : Prog.Ends Stays c.fetch := by
    refine .call fun _ => .call fun answer => ?_
    cases answer with
    | error e => exact ends_leave (stays_error_iff.mpr (hdiscovery e))
    | ok metadata => exact .call fun _ => .call fun _ => ends_leave (stays_ok ())
  refine .call fun observed => .call fun now => ?_
  split
  · exact .ret (stays_ok ())
  · refine .call fun _ => .call fun current => ?_
    split
    · exact ends_leave (stays_ok ())
    · refine .call fun now => ?_
      split
      · exact ends_leave (stays_ok ())
      · exact hfetch

theorem stays_outcome (answer : Except ClaimsVerificationError IdTokenClaims) :
    Stays (outcome answer) := by
  cases answer with
  | ok claims => exact stays_ok _
  | error e =>
    apply stays_error_iff.mpr
    cases e <;> exact fun h => nomatch h

/-- **The provider never redirects**, whatever it is answered. -/
theorem ends_body (call : ProviderCall) : Prog.Ends Stays (c.body call) := by
  -- both calls go on after a refresh, and pass its failure on
  have hrefreshed : ∀ (k : Except AuthError Unit → ProviderProg (Except AuthError (Option IdentityClaims))),
      Prog.Ends Stays (k (.ok ())) → (∀ e, k (.error e) = .ret (.error e)) →
      Prog.Ends Stays (c.refresh >>= k) := by
    intro k hok herror
    refine c.ends_refresh.bind ?_
    intro result hresult
    cases result with
    | ok u => exact hok
    | error e =>
      rw [herror e]
      exact .ret (stays_error_iff.mpr (hresult e rfl))
  rw [body_eq]
  cases call with
  | refresh => exact hrefreshed _ (.ret (stays_ok _)) fun _ => rfl
  | verifyIdToken token nonce =>
    simp only
    cases c.lib.parseIdToken token with
    | error e => exact .ret (stays_error_iff.mpr fun h => nomatch h)
    | ok idToken =>
      refine .call fun state => .call fun first => ?_
      cases first with
      | ok claims => exact .ret (stays_outcome _)
      | error error =>
        simp only
        split
        · exact .ret (stays_outcome _)
        · exact hrefreshed _ (.call fun _ => .call fun second => .ret (stays_outcome second))
            fun _ => rfl

end ProviderService

end AuthnKit
