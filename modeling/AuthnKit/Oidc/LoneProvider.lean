import AuthnKit.Oidc.ProviderRuns

/-!
# AuthnKit — one verification, with no refresh beside it

A provider that nobody else is calling: the library's verification is an arbitrary function,
discovery has an arbitrary outcome, and the clock is read at arbitrary non-decreasing instants.
The calls are those of `ProviderRuns`, run against this environment from start to end.

* **`interpret_refresh`** — what a refresh does here: nothing while the snapshot is young, else
  one fetch.
* **`interpret_verifyIdToken`** — the verification, with its one retry.
* **`verifyIdToken_retries_once`** — when it accepts, when it fetches, and what it reports.
-/

namespace AuthnKit

/-! ## The environment

One caller, and a provider that nobody else uses: every operation is answered by the environment
from a state, with the clock never going back. -/

structure LoneProvider where
  config : OidcConfig
  lib : OpenIdConnect
  verification :
    IdToken → OidcClient → NonceVerifier → Except ClaimsVerificationError IdTokenClaims
  discovery : Except DiscoveryError ProviderMetadata
  tokenEndpoint : TokenRequest → Except RequestTokenError TokenResponse
  /-- The instant of each reading of the clock. -/
  clock : ℕ → Instant
  clock_mono : ∀ n, clock n ≤ clock (n + 1)

/-- The snapshot, the number of clock readings taken and the number of fetches started. -/
structure LoneState where
  snapshot : Arc ProviderState
  readings : ℕ
  fetches : ℕ

namespace LoneProvider

variable (q : LoneProvider)

def handle : (op : ProviderOp) → LoneState → op.Answer × LoneState
  | .read, s => (s.snapshot, s)
  | .write state, s => ((), { s with snapshot := ⟨s.snapshot.ptr + 1, state⟩ })
  | .lock, s => ((), s)
  | .unlock, s => ((), s)
  | .instantNow, s => (q.clock s.readings, { s with readings := s.readings + 1 })
  | .discoverStart _, s => ((), { s with fetches := s.fetches + 1 })
  | .discoverAwait _, s => (q.discovery, s)
  | .idTokenClaims token client nonce, s => (q.verification token client nonce, s)
  | .requestAsync request, s => (q.tokenEndpoint request, s)

def service : ProviderService := ⟨q.config, q.lib⟩

/-- `refresh`, run from `s`. -/
def refresh (s : LoneState) : Except AuthError Unit × LoneState :=
  q.service.provider.refresh.run.interpret q.handle s

/-- `verify_id_token`, run from `s`. -/
def verifyIdToken (token : String) (nonce : NonceCheck) (s : LoneState) :
    Except AuthError IdentityClaims × LoneState :=
  (q.service.provider.verifyIdToken token nonce).run.interpret q.handle s

/-- What the library says of a token under the keys of the current snapshot. -/
def verify (idToken : IdToken) (nonce : NonceCheck) (s : LoneState) :
    Except ClaimsVerificationError IdTokenClaims :=
  q.verification idToken s.snapshot.value.client (nonce.verifier q.lib)

/-- The snapshot is younger than the minimum refresh interval. -/
def Young (s : LoneState) : Prop :=
  (q.clock s.readings).since s.snapshot.value.fetchedAt < q.config.minRefreshInterval

instance (s : LoneState) : Decidable (q.Young s) := inferInstanceAs (Decidable (_ < _))

/-- The state a fetch leaves, once its lock was taken. -/
def fetched (s : LoneState) : Except AuthError Unit × LoneState :=
  match q.discovery with
  | .error e => (.error e.toAuthError, { s with fetches := s.fetches + 1 })
  | .ok metadata =>
    (.ok (), {
      snapshot := ⟨s.snapshot.ptr + 1, q.service.stateOf metadata (q.clock s.readings)⟩
      readings := s.readings + 1
      fetches := s.fetches + 1 })

/-! ## Refreshing

The lock is free and the snapshot is its own, so a refresh either finds it young or fetches. -/

/-- A fetch asks once, and stores what it is answered; a failure leaves the snapshot. -/
theorem interpret_fetch (s : LoneState) : q.service.fetch.interpret q.handle s = q.fetched s := by
  unfold ProviderService.fetch fetched
  simp only [Prog.interpret_call, handle]
  cases q.discovery with
  | error e => rfl
  | ok metadata => rfl

/-- A snapshot that was old enough a moment ago still is. -/
theorem not_young_of_le {s : LoneState} (h : ¬ q.Young s) :
    ¬ q.service.Fresh s.snapshot.value (q.clock (s.readings + 1)) := by
  have hmono : (q.clock s.readings).nanos ≤ (q.clock (s.readings + 1)).nanos :=
    q.clock_mono s.readings
  simp only [Young, ProviderService.Fresh, Duration.lt_def, Instant.since_nanos] at h ⊢
  show ¬ _ < q.config.minRefreshInterval.nanos
  omega

/-- Under the lock nothing has changed, so the fetch is made. -/
theorem interpret_locked {s : LoneState} (h : ¬ q.Young s) :
    (q.service.locked s.snapshot).interpret q.handle { s with readings := s.readings + 1 }
      = q.fetched { s with readings := s.readings + 2 } := by
  show (if s.snapshot.ptr ≠ s.snapshot.ptr then ProviderService.leave (.ok ())
    else .call .instantNow fun now =>
      if q.service.Fresh s.snapshot.value now then ProviderService.leave (.ok ())
      else q.service.fetch : ProviderProg _).interpret q.handle _ = _
  rw [if_neg (fun hne => hne rfl), Prog.interpret_call]
  show (if q.service.Fresh s.snapshot.value (q.clock (s.readings + 1)) then
    ProviderService.leave (.ok ()) else q.service.fetch).interpret q.handle _ = _
  rw [if_neg (q.not_young_of_le h)]
  exact q.interpret_fetch _

/-- **A refresh does nothing while the snapshot is young, and otherwise fetches once**, whether that
succeeds or fails. -/
theorem interpret_refresh (s : LoneState) :
    q.refresh s = if q.Young s then (.ok (), { s with readings := s.readings + 1 })
      else q.fetched { s with readings := s.readings + 2 } := by
  unfold refresh
  rw [ProviderService.run_refresh]
  show (if q.service.Fresh s.snapshot.value (q.clock s.readings) then .ret (.ok ())
    else .call .lock fun _ => q.service.locked s.snapshot : ProviderProg _).interpret q.handle
      { s with readings := s.readings + 1 } = _
  by_cases hyoung : q.Young s
  · have hfresh : q.service.Fresh s.snapshot.value (q.clock s.readings) := hyoung
    rw [if_pos hyoung, if_pos hfresh]
    rfl
  · have hstale : ¬ q.service.Fresh s.snapshot.value (q.clock s.readings) := hyoung
    rw [if_neg hyoung, if_neg hstale, Prog.interpret_call]
    -- the lock is free and nobody stored a snapshot meanwhile
    exact q.interpret_locked hyoung

/-! ## Verifying

The two attempts and the refresh between them, as a function of the environment. -/

def outcome : Except ClaimsVerificationError IdTokenClaims → Except AuthError IdentityClaims
  | .ok claims => .ok (identityFromIdTokenClaims claims)
  | .error e => .error e.toAuthError

/-- An attempt gives claims exactly when the library accepted the token. -/
theorem outcome_eq_ok {first : Except ClaimsVerificationError IdTokenClaims}
    {claims : IdentityClaims} :
    outcome first = .ok claims
      ↔ ∃ accepted, first = .ok accepted ∧ claims = identityFromIdTokenClaims accepted := by
  cases first with
  | error e => simp [outcome]
  | ok accepted => simp [outcome, eq_comm]

/-- What follows a failure that stale keys would explain. -/
def retried (idToken : IdToken) (nonce : NonceCheck) (s : LoneState) :
    Except AuthError IdentityClaims × LoneState :=
  match q.refresh s with
  | (.error e, s') => (.error e, s')
  | (.ok (), s') => (outcome (q.verify idToken nonce s'), s')

/-- What is made of a token that parses. -/
def decided (idToken : IdToken) (nonce : NonceCheck) (s : LoneState) :
    Except AuthError IdentityClaims × LoneState :=
  match q.verify idToken nonce s with
  | .ok claims => (outcome (.ok claims), s)
  | .error e => if isPossiblyStaleKeys e then q.retried idToken nonce s
      else (outcome (.error e), s)

/-- The library's verdict is a function of the token and the current snapshot, and leaves everything
as it is. -/
theorem interpret_verify (idToken : IdToken) (nonce : NonceCheck) (s : LoneState) :
    (q.service.provider.verify idToken s.snapshot.value.client nonce).interpret q.handle s
      = (q.verify idToken nonce s, s) := rfl

theorem interpret_attempt (idToken : IdToken) (nonce : NonceCheck)
    (f : Except ClaimsVerificationError IdTokenClaims →
      ExceptT AuthError ProviderProg IdentityClaims) (s : LoneState) :
    (do
        let state ← q.service.provider.snapshot
        let answer ← q.service.provider.verify idToken state.value.client nonce
        f answer : ExceptT AuthError ProviderProg IdentityClaims).run.interpret q.handle s
      = (f (q.verify idToken nonce s)).run.interpret q.handle s := by
  rw [ProviderService.run_snapshot_bind, Prog.interpret_call]
  show (liftM (q.service.provider.verify idToken s.snapshot.value.client nonce)
    >>= f).run.interpret q.handle s = _
  rw [Prog.run_liftM_bind, Prog.interpret_bind, interpret_verify]

/-- The second attempt, after a refresh, with the keys that left. -/
theorem interpret_retry (idToken : IdToken) (nonce : NonceCheck) (s : LoneState) :
    (do
        q.service.provider.refresh
        let state ← q.service.provider.snapshot
        match ← q.service.provider.verify idToken state.value.client nonce with
        | .ok claims => return identityFromIdTokenClaims claims
        | .error error => throw error.toAuthError :
          ExceptT AuthError ProviderProg IdentityClaims).run.interpret q.handle s
      = q.retried idToken nonce s := by
  rw [ExceptT.run_bind, Prog.interpret_bind]
  rw [show Prog.interpret q.handle q.service.provider.refresh.run s = q.refresh s from rfl]
  unfold retried
  rcases q.refresh s with ⟨_ | ⟨⟩, s'⟩
  · rfl
  · refine (q.interpret_attempt idToken nonce _ s').trans ?_
    show _ = (outcome (q.verify idToken nonce s'), s')
    cases q.verify idToken nonce s' <;> rfl

/-- **The verification, with its one retry**, as a function of the environment. -/
theorem interpret_verifyIdToken (token : String) (nonce : NonceCheck) (s : LoneState) :
    q.verifyIdToken token nonce s
      = match q.lib.parseIdToken token with
        | .error e => (.error (.invalidCredential ("malformed id token: " ++ e)), s)
        | .ok idToken => q.decided idToken nonce s := by
  unfold verifyIdToken OidcProvider.verifyIdToken
  rw [show q.service.provider.lib = q.lib from rfl]
  cases q.lib.parseIdToken token with
  | error e => rfl
  | ok idToken =>
    refine (q.interpret_attempt idToken nonce _ s).trans ?_
    show _ = q.decided idToken nonce s
    unfold decided
    cases q.verify idToken nonce s with
    | ok claims => rfl
    | error e =>
      show Prog.interpret q.handle (ExceptT.run (if (!isPossiblyStaleKeys e) = true then _ else _)) s
        = if isPossiblyStaleKeys e = true then _ else _
      cases isPossiblyStaleKeys e with
      | false => rfl
      | true => exact q.interpret_retry idToken nonce s

/-! ## What a verification may do

The promise, in terms of the library's verdicts and of the age of the snapshot only. -/

inductive KeyRelated : ClaimsVerificationError → Prop where
  | noMatchingKey (text : String) : KeyRelated (.signatureVerification .noMatchingKey text)
  | cryptoError (text : String) : KeyRelated (.signatureVerification .cryptoError text)
  | ambiguousKeyId (text : String) : KeyRelated (.signatureVerification .ambiguousKeyId text)

/-- The classification is that of the library's three errors. -/
theorem keyRelated_iff {e : ClaimsVerificationError} :
    KeyRelated e ↔ isPossiblyStaleKeys e = true := by
  constructor
  · intro h
    cases h <;> rfl
  · intro h
    cases e with
    | signatureVerification error text =>
      cases error with
      | noMatchingKey => exact .noMatchingKey text
      | cryptoError => exact .cryptoError text
      | ambiguousKeyId => exact .ambiguousKeyId text
      | other => exact absurd h (by simp [isPossiblyStaleKeys])
    | _ => exact absurd h (by simp [isPossiblyStaleKeys])

/-- The library accepts the token under the keys of the current snapshot. -/
def Accepts (idToken : IdToken) (nonce : NonceCheck) (s : LoneState) (claims : IdentityClaims) :
    Prop :=
  ∃ accepted, q.verify idToken nonce s = .ok accepted
    ∧ claims = identityFromIdTokenClaims accepted

/-- The library fails for a reason that is about keys. -/
def FailsOnKeys (idToken : IdToken) (nonce : NonceCheck) (s : LoneState) : Prop :=
  ∃ e, q.verify idToken nonce s = .error e ∧ KeyRelated e

theorem decided_of_accepted {idToken : IdToken} {nonce : NonceCheck} {s : LoneState}
    {accepted : IdTokenClaims} (h : q.verify idToken nonce s = .ok accepted) :
    q.decided idToken nonce s = (.ok (identityFromIdTokenClaims accepted), s) := by
  unfold decided
  rw [h]
  rfl

theorem decided_of_failsOnKeys {idToken : IdToken} {nonce : NonceCheck} {s : LoneState}
    (h : q.FailsOnKeys idToken nonce s) : q.decided idToken nonce s = q.retried idToken nonce s := by
  obtain ⟨e, he, hkeys⟩ := h
  unfold decided
  rw [he]
  exact if_pos (keyRelated_iff.mp hkeys)

theorem decided_of_other {idToken : IdToken} {nonce : NonceCheck} {s : LoneState}
    {e : ClaimsVerificationError} (h : q.verify idToken nonce s = .error e) (hkeys : ¬ KeyRelated e) :
    q.decided idToken nonce s = (.error e.toAuthError, s) := by
  unfold decided
  rw [h]
  exact if_neg fun hstale => hkeys (keyRelated_iff.mpr hstale)

/-- What a refresh leaves of the count of fetches: one more, unless the snapshot is young. -/
theorem refresh_fetches (s : LoneState) :
    (q.refresh s).2.fetches = if q.Young s then s.fetches else s.fetches + 1 := by
  rw [interpret_refresh]
  split
  · rfl
  · unfold fetched
    cases q.discovery <;> rfl

theorem retried_snd (idToken : IdToken) (nonce : NonceCheck) (s : LoneState) :
    (q.retried idToken nonce s).2 = (q.refresh s).2 := by
  unfold retried
  rcases q.refresh s with ⟨_ | ⟨⟩, s'⟩ <;> rfl

/-- A retry accepts exactly when the refresh succeeds and the library accepts what it left. -/
theorem retried_eq_ok {idToken : IdToken} {nonce : NonceCheck} {s : LoneState}
    {claims : IdentityClaims} :
    (q.retried idToken nonce s).1 = .ok claims
      ↔ (q.refresh s).1 = .ok () ∧ q.Accepts idToken nonce (q.refresh s).2 claims := by
  unfold retried Accepts
  rcases q.refresh s with ⟨_ | ⟨⟩, s'⟩
  · simp
  · simp [outcome_eq_ok]

/-- What is promised of one verification, started in `s`. -/
structure RetriesOnce (token : String) (nonce : NonceCheck) (s : LoneState) : Prop where
  accepts_iff : ∀ claims, (q.verifyIdToken token nonce s).1 = .ok claims
    ↔ ∃ idToken, q.lib.parseIdToken token = .ok idToken
      ∧ (q.Accepts idToken nonce s claims
        ∨ q.FailsOnKeys idToken nonce s ∧ (q.refresh s).1 = .ok ()
          ∧ q.Accepts idToken nonce (q.refresh s).2 claims)
  fetches_le : (q.verifyIdToken token nonce s).2.fetches ≤ s.fetches + 1
  unparsed : (∀ idToken, q.lib.parseIdToken token ≠ .ok idToken) →
    (q.verifyIdToken token nonce s).2.fetches = s.fetches
  settled : ∀ idToken, q.lib.parseIdToken token = .ok idToken → ¬ q.FailsOnKeys idToken nonce s →
    (q.verifyIdToken token nonce s).2.fetches = s.fetches
  young : q.Young s → (q.verifyIdToken token nonce s).2.fetches = s.fetches
  recovers : ∀ idToken metadata accepted, q.lib.parseIdToken token = .ok idToken →
    q.FailsOnKeys idToken nonce s → ¬ q.Young s → q.discovery = .ok metadata →
    q.verification idToken
      (buildClient metadata q.config.clientId q.config.clientSecret q.config.redirectUrl)
      (nonce.verifier q.lib) = .ok accepted →
    (q.verifyIdToken token nonce s).1 = .ok (identityFromIdTokenClaims accepted)
  reports : ∀ e, q.discovery = .error e →
    (q.verifyIdToken token nonce s).2.fetches ≠ s.fetches →
    (q.verifyIdToken token nonce s).1 = .error e.toAuthError
      ∧ (q.verifyIdToken token nonce s).2.snapshot = s.snapshot

/-- Without a failure about keys nothing is fetched, and the answer is the first attempt's. -/
theorem decided_of_not_failsOnKeys {idToken : IdToken} {nonce : NonceCheck} {s : LoneState}
    (h : ¬ q.FailsOnKeys idToken nonce s) :
    q.decided idToken nonce s = (outcome (q.verify idToken nonce s), s) := by
  cases hfirst : q.verify idToken nonce s with
  | ok accepted => exact q.decided_of_accepted hfirst
  | error e => exact q.decided_of_other hfirst fun hkeys => h ⟨e, hfirst, hkeys⟩

/-- A token that parses is accepted on the first attempt or on the retry. -/
theorem decided_eq_ok {idToken : IdToken} {nonce : NonceCheck} {s : LoneState}
    {claims : IdentityClaims} :
    (q.decided idToken nonce s).1 = .ok claims
      ↔ q.Accepts idToken nonce s claims
        ∨ q.FailsOnKeys idToken nonce s ∧ (q.refresh s).1 = .ok ()
          ∧ q.Accepts idToken nonce (q.refresh s).2 claims := by
  by_cases hkeys : q.FailsOnKeys idToken nonce s
  · -- the first attempt failed, so only the retry can accept
    have hfirst : ¬ q.Accepts idToken nonce s claims := by
      rintro ⟨accepted, hok, _⟩
      obtain ⟨e, he, _⟩ := hkeys
      exact absurd (hok.symm.trans he) (by simp)
    rw [q.decided_of_failsOnKeys hkeys, retried_eq_ok]
    constructor
    · intro h
      exact .inr ⟨hkeys, h⟩
    · intro h
      exact (h.resolve_left hfirst).2
  · rw [q.decided_of_not_failsOnKeys hkeys]
    show outcome (q.verify idToken nonce s) = .ok claims ↔ _
    rw [outcome_eq_ok]
    constructor
    · intro h
      exact .inl h
    · intro h
      exact h.resolve_right fun h => hkeys h.1

/-- A verification fetches only after a failure about keys, with a snapshot that is old enough. -/
theorem decided_fetches_eq {idToken : IdToken} {nonce : NonceCheck} {s : LoneState}
    (h : q.FailsOnKeys idToken nonce s → q.Young s) :
    (q.decided idToken nonce s).2.fetches = s.fetches := by
  by_cases hkeys : q.FailsOnKeys idToken nonce s
  · rw [q.decided_of_failsOnKeys hkeys, retried_snd, refresh_fetches, if_pos (h hkeys)]
  · rw [q.decided_of_not_failsOnKeys hkeys]

theorem decided_fetches_le (idToken : IdToken) (nonce : NonceCheck) (s : LoneState) :
    (q.decided idToken nonce s).2.fetches ≤ s.fetches + 1 := by
  by_cases hkeys : q.FailsOnKeys idToken nonce s
  · rw [q.decided_of_failsOnKeys hkeys, retried_snd, refresh_fetches]
    split <;> omega
  · rw [q.decided_of_not_failsOnKeys hkeys]
    exact Nat.le_succ _

/-- Keys that were fetched are the ones the second attempt uses. -/
theorem retried_of_discovered {idToken : IdToken} {nonce : NonceCheck} {s : LoneState}
    {metadata : ProviderMetadata} {accepted : IdTokenClaims} (hyoung : ¬ q.Young s)
    (hmeta : q.discovery = .ok metadata)
    (hverify : q.verification idToken
      (buildClient metadata q.config.clientId q.config.clientSecret q.config.redirectUrl)
      (nonce.verifier q.lib) = .ok accepted) :
    (q.retried idToken nonce s).1 = .ok (identityFromIdTokenClaims accepted) := by
  rw [retried_eq_ok, interpret_refresh, if_neg hyoung]
  unfold fetched
  rw [hmeta]
  exact ⟨rfl, accepted, hverify, rfl⟩

/-- A fetch that fails is what the verification reports, and the snapshot stays. -/
theorem retried_of_failed {idToken : IdToken} {nonce : NonceCheck} {s : LoneState}
    {e : DiscoveryError} (hyoung : ¬ q.Young s) (hfail : q.discovery = .error e) :
    (q.retried idToken nonce s).1 = .error e.toAuthError
      ∧ (q.retried idToken nonce s).2.snapshot = s.snapshot := by
  unfold retried
  rw [interpret_refresh, if_neg hyoung]
  unfold fetched
  rw [hfail]
  exact ⟨rfl, rfl⟩

/-- **One retry, and only when fresh keys could help**: for every token, nonce check, environment
and state it is started in. -/
theorem verifyIdToken_retries_once (token : String) (nonce : NonceCheck) (s : LoneState) :
    q.RetriesOnce token nonce s := by
  cases hparse : q.lib.parseIdToken token with
  | error e =>
    have hrun : q.verifyIdToken token nonce s
        = (.error (.invalidCredential ("malformed id token: " ++ e)), s) := by
      rw [interpret_verifyIdToken, hparse]
    constructor <;> simp [hrun, hparse]
  | ok idToken =>
    have hrun : q.verifyIdToken token nonce s = q.decided idToken nonce s := by
      rw [interpret_verifyIdToken, hparse]
    have hparsed : ∀ t, q.lib.parseIdToken token = .ok t → t = idToken := by
      intro t ht
      exact Except.ok.inj (ht.symm.trans hparse)
    constructor
    case accepts_iff =>
      intro claims
      rw [hrun, decided_eq_ok]
      constructor
      · intro h
        exact ⟨idToken, hparse, h⟩
      · intro ⟨t, ht, h⟩
        rwa [hparsed t ht] at h
    case fetches_le =>
      rw [hrun]
      exact q.decided_fetches_le idToken nonce s
    case unparsed =>
      intro h
      exact absurd hparse (h idToken)
    case settled =>
      intro t ht h
      rw [hparsed t ht] at h
      rw [hrun]
      exact q.decided_fetches_eq fun hkeys => absurd hkeys h
    case young =>
      intro h
      rw [hrun]
      exact q.decided_fetches_eq fun _ => h
    case recovers =>
      intro t metadata accepted ht hkeys hyoung hmeta hverify
      rw [hparsed t ht] at hkeys hverify
      rw [hrun, q.decided_of_failsOnKeys hkeys]
      exact q.retried_of_discovered hyoung hmeta hverify
    case reports =>
      intro e hfail hfetched
      rw [hrun] at hfetched ⊢
      -- a fetch was made, so the retry was reached with an old snapshot
      by_cases hkeys : q.FailsOnKeys idToken nonce s
      · have hyoung : ¬ q.Young s := fun hyoung =>
          hfetched (q.decided_fetches_eq fun _ => hyoung)
        rw [q.decided_of_failsOnKeys hkeys]
        exact q.retried_of_failed hyoung hfail
      · exact absurd (q.decided_fetches_eq fun h => absurd h hkeys) hfetched

/-! ## A key rotation

The issuer signs with `key-2` since the snapshot was taken a hundred seconds ago, when it had
`key-1`. Every reading of the clock is a second after the one before, for a while. -/

def rotatedMetadata (key : String) : ProviderMetadata :=
  ⟨"https://issuer/authorize", some "https://issuer/token", none, [key]⟩

def rotatedClaims : IdTokenClaims where
  subject := "ada"
  expiration := 4000000000
  email := some "ada@example.com"
  preferredUsername := none
  name := none
  nonce := some "nonce"
  members := none

/-- The token is signed with `key-2`; its claims are looked at once the signature was. -/
def rotation : LoneProvider where
  config := { issuerUrl := "https://issuer", clientId := "client",
              redirectUrl := "https://app/callback" }
  lib := {
    parseIdToken := fun text => if text = "a.b.c" then .ok ⟨text⟩ else .error "expected three parts"
    nonceEquals := fun expected claim =>
      if claim = some expected then .ok () else .error "nonce mismatch"
    missingTokenUrl := "no token url"
    authorizeUrl := fun request => request.client.metadata.authorizationEndpoint }
  verification _ client nonce :=
    if "key-2" ∈ client.metadata.jwks then
      match nonce rotatedClaims.nonce with
      | .ok () => .ok rotatedClaims
      | .error text => .error (.invalidNonce text)
    else .error (.signatureVerification .noMatchingKey "no key found")
  discovery := .ok (rotatedMetadata "key-2")
  tokenEndpoint _ := .error (.other "not used")
  clock n := ⟨(100 + min n 100) * 1000000000, by omega⟩
  clock_mono n := by
    show (100 + min n 100) * 1000000000 ≤ (100 + min (n + 1) 100) * 1000000000
    omega

def beforeRotation : LoneState where
  snapshot := ⟨0, rotation.service.stateOf (rotatedMetadata "key-1") ⟨0, Instant.zero_lt_max⟩⟩
  readings := 0
  fetches := 0

/-- **The rotation is recovered from**: the first attempt finds no key, one fetch finds the new one,
and the token is accepted. A token with another nonce is fetched for as well, and refused. -/
theorem rotation_recovered :
    rotation.FailsOnKeys ⟨"a.b.c"⟩ (.matches "nonce") beforeRotation
    ∧ (rotation.verifyIdToken "a.b.c" (.matches "nonce") beforeRotation).1
      = .ok (identityFromIdTokenClaims rotatedClaims)
    ∧ (rotation.verifyIdToken "a.b.c" (.matches "nonce") beforeRotation).2.fetches ≤ 1
    ∧ (∀ claims, (rotation.verifyIdToken "a.b.c" (.matches "other") beforeRotation).1 ≠ .ok claims)
    ∧ (rotation.verifyIdToken "a.b" (.matches "nonce") beforeRotation).2.fetches = 0 := by
  have honce := fun token nonce => rotation.verifyIdToken_retries_once token nonce beforeRotation
  have hkeys : ∀ nonce, rotation.FailsOnKeys ⟨"a.b.c"⟩ nonce beforeRotation := fun _ =>
    ⟨_, rfl, .noMatchingKey "no key found"⟩
  have hyoung : ¬ rotation.Young beforeRotation := by decide
  refine ⟨hkeys _, ?_, (honce _ _).fetches_le, ?_, ?_⟩
  · exact (honce _ _).recovers ⟨"a.b.c"⟩ (rotatedMetadata "key-2") rotatedClaims rfl (hkeys _) hyoung
      rfl rfl
  · intro claims haccepted
    obtain ⟨idToken, -, ⟨_, hfirst, -⟩ | ⟨-, -, accepted, hsecond, -⟩⟩ :=
      ((honce _ _).accepts_iff claims).mp haccepted
    · cases hfirst
    · -- under the new key it is the nonce that is wrong
      rw [rotation.interpret_refresh, if_neg hyoung] at hsecond
      cases hsecond
  · exact (honce _ _).unparsed fun idToken hparse => by cases hparse

end LoneProvider

end AuthnKit
