import AuthnKit.Foundation.Justified
import AuthnKit.Oidc.RefreshSafety

/-!
# AuthnKit — discovery, and where verification keys come from

`OidcProvider::discover` (`src/oidc/provider.rs`) and `src/oidc/metadata.rs`: the first snapshot a
provider holds. From there on the snapshot changes only by `refresh`, in any interleaving, so the
keys of every verification can be traced back to an answer of the issuer.

* **`OidcProvider.discover`**, **`startup`** — the first fetch; a failure of it is the service's.
* **`Fetched`** — metadata the configured issuer published, at start-up or in answer to a refresh.
* **`keys_from_issuer`** — in every run, no other issuer is asked for discovery, each token is
  verified by a client made of one published answer and this service's credentials, and what is
  accepted was verified so.
-/

namespace AuthnKit

open Interleave

/-- The introspection endpoint the provider advertises, if any. -/
def discoveredIntrospectionEndpoint (metadata : ProviderMetadata) : Option String :=
  metadata.introspectionEndpoint

def ProviderState.introspectionEndpoint (state : ProviderState) : Option String :=
  discoveredIntrospectionEndpoint state.metadata

/-- The first snapshot of a provider; `httpClient` is what building the HTTP client gave. -/
def OidcProvider.discover {m : Type → Type} [Monad m] (p : OidcProvider m)
    (httpClient : Except String Unit) : ExceptT AuthError m ProviderState := do
  match httpClient with
  | .error e => throw (.internal ("could not build http client: " ++ e))
  | .ok () => p.fetchState

namespace ProviderService

variable (c : ProviderService)

/-! ## Start-up

A provider starts with one discovery, and with its answer as the first snapshot. Which answer that
was is a parameter of the runs. -/

/-- What `discover` does. -/
def startup (httpClient : Except String Unit) : ProviderProg (Except AuthError ProviderState) :=
  (c.provider.discover httpClient).run

/-- Starting up, unfolded: the HTTP client is built, the issuer is asked, and its answer becomes the
snapshot. -/
theorem startup_eq (httpClient : Except String Unit) :
    c.startup httpClient = match httpClient with
      | .error e => .ret (.error (.internal ("could not build http client: " ++ e)))
      | .ok () => .call (.discoverStart c.config.issuerUrl) fun _ =>
          .call (.discoverAwait c.config.issuerUrl) fun answer => match answer with
            | .error e => .ret (.error e.toAuthError)
            | .ok metadata => .call .instantNow fun now => .ret (.ok (c.stateOf metadata now)) := by
  unfold startup OidcProvider.discover
  cases httpClient with
  | error e => rfl
  | ok u =>
    refine Prog.call_congr fun _ => Prog.call_congr fun answer => ?_
    cases answer <;> rfl

/-- A request for discovery goes to the configured issuer, also one whose answer nobody waits for
any more. -/
def AsksIssuer : ProviderOp → Prop
  | .discoverStart issuer | .discoverAwait issuer => issuer = c.config.issuerUrl
  | _ => True

/-- What `discover` may return: a snapshot of what the issuer answered, or an error that is the
service's to fix and not the client's. -/
def StartupResult (past : List (Σ op : ProviderOp, op.Answer)) :
    Except AuthError ProviderState → Prop
  | .ok state => ∃ metadata, ⟨.discoverAwait c.config.issuerUrl, .ok metadata⟩ ∈ past
      ∧ state = c.stateOf metadata state.fetchedAt
  | .error e => e.isServiceFault = true

/-- Starting up asks the configured issuer, and gives what it answered, or an error that is not the
client's. -/
theorem justified_startup (httpClient : Except String Unit) :
    Prog.Justified (fun _ _ => True)
      (fun past result => (∀ x ∈ past, c.AsksIssuer x.1) ∧ c.StartupResult past result) []
      (c.startup httpClient) := by
  rw [startup_eq]
  cases httpClient with
  | error e => exact .ret ⟨by simp, rfl⟩
  | ok u =>
    refine .call trivial fun _ => .call trivial fun answer => ?_
    cases answer with
    | error e => exact .ret ⟨by simp [AsksIssuer], e.isServiceFault_toAuthError⟩
    | ok metadata =>
      exact .call trivial fun now => .ret ⟨by simp [AsksIssuer], metadata, by simp, rfl⟩

/-- The runs of a provider that started with the discovery in `tr`. -/
def startedBy (tr : List (Σ op : ProviderOp, op.Answer)) :
    Machine ProviderCall ProviderOp ProviderOp.Answer ProviderWorld
      (Except AuthError (Option IdentityClaims)) :=
  c.machine.startedIn fun w => Prog.Returns (c.startup (.ok ())) tr (.ok w.state.value)

/-! ## What a call does, given what it was told

A call stores only what it has fetched, and verifies only with what it has read. Both are properties
of its program, and are proved along it. -/

/-- The keys of a verification are those of a snapshot that was read, a snapshot that is stored was
fetched, and only the configured issuer is asked. -/
def Sourced (past : List (Σ op : ProviderOp, op.Answer)) : ProviderOp → Prop
  | .idTokenClaims _ client _ => ∃ state, ⟨.read, state⟩ ∈ past ∧ client = state.value.client
  | .write state => ∃ metadata, ⟨.discoverAwait c.config.issuerUrl, .ok metadata⟩ ∈ past
      ∧ state = c.stateOf metadata state.fetchedAt
  | .discoverStart issuer | .discoverAwait issuer => issuer = c.config.issuerUrl
  | _ => True

/-- Claims are returned only as a successful verification of that token gave them, under the nonce
check that was asked for. -/
def Vouched (call : ProviderCall) (past : List (Σ op : ProviderOp, op.Answer)) :
    Except AuthError (Option IdentityClaims) → Prop
  | .ok (some claims) => ∃ token nonce idToken client verified,
      call = .verifyIdToken token nonce ∧ c.lib.parseIdToken token = .ok idToken
      ∧ ⟨.idTokenClaims idToken client (nonce.verifier c.lib), .ok verified⟩ ∈ past
      ∧ claims = identityFromIdTokenClaims verified
  | _ => True

variable {c} in
/-- In particular a sourced request for discovery goes to the configured issuer. -/
theorem Sourced.asksIssuer {past : List (Σ op : ProviderOp, op.Answer)} {op : ProviderOp}
    (h : c.Sourced past op) : c.AsksIssuer op := by
  cases op with
  | discoverStart issuer => exact h
  | discoverAwait issuer => exact h
  | _ => exact trivial

theorem justified_leave {past : List (Σ op : ProviderOp, op.Answer)}
    (result : Except AuthError Unit) :
    Prog.Justified c.Sourced (fun _ _ => True) past (leave result) :=
  .call trivial fun _ => .ret trivial

/-- A fetch asks the configured issuer, and stores what it answered. -/
theorem justified_fetch (past : List (Σ op : ProviderOp, op.Answer)) :
    Prog.Justified c.Sourced (fun _ _ => True) past c.fetch := by
  refine .call rfl fun _ => .call rfl fun answer => ?_
  cases answer with
  | error e => exact c.justified_leave _
  | ok metadata =>
    refine .call trivial fun now => .call ?_ fun _ => c.justified_leave _
    exact ⟨metadata, by simp, rfl⟩

/-- A refresh does so too, if it gets as far as fetching. -/
theorem justified_refresh (past : List (Σ op : ProviderOp, op.Answer)) :
    Prog.Justified c.Sourced (fun _ _ => True) past c.refresh := by
  refine .call trivial fun observed => .call trivial fun now => ?_
  split
  · exact .ret trivial
  · refine .call trivial fun _ => .call trivial fun current => ?_
    split
    · exact c.justified_leave _
    · refine .call trivial fun now => ?_
      split
      · exact c.justified_leave _
      · exact c.justified_fetch _

/-- A verification uses the client of the snapshot it has just read, and what follows it may use its
answer. -/
theorem justified_attempt {idToken : IdToken} {nonce : NonceCheck}
    {k : Except ClaimsVerificationError IdTokenClaims →
      ProviderProg (Except AuthError (Option IdentityClaims))}
    {Q : List (Σ op : ProviderOp, op.Answer) → Except AuthError (Option IdentityClaims) → Prop}
    {past : List (Σ op : ProviderOp, op.Answer)}
    (hk : ∀ client a past', past' = past ++ [⟨.read, client⟩]
        ++ [⟨.idTokenClaims idToken client.value.client (nonce.verifier c.lib), a⟩] →
      Prog.Justified c.Sourced Q past' (k a)) :
    Prog.Justified c.Sourced Q past (c.attempt idToken nonce k) :=
  .call trivial fun state => .call ⟨state, by simp, rfl⟩ fun a => hk state a _ rfl

/-- **Every call is sourced**, and vouches for what it returns. -/
theorem justified_body (call : ProviderCall) :
    Prog.Justified c.Sourced (c.Vouched call) [] (c.body call) := by
  rw [body_eq]
  cases call with
  | refresh =>
    refine (c.justified_refresh []).bind fun past result _ => .ret ?_
    cases result <;> exact trivial
  | verifyIdToken token nonce =>
    simp only
    cases hparse : c.lib.parseIdToken token with
    | error e => exact .ret trivial
    | ok idToken =>
      -- whichever verification answers with claims, they are what is returned
      have houtcome : ∀ (state : Arc ProviderState) past'
          (answer : Except ClaimsVerificationError IdTokenClaims),
          (⟨.idTokenClaims idToken state.value.client (nonce.verifier c.lib), answer⟩ :
            Σ op : ProviderOp, op.Answer) ∈ past' →
          c.Vouched (.verifyIdToken token nonce) past' (outcome answer) := by
        intro state past' answer hmem
        cases answer with
        | error e => exact trivial
        | ok verified => exact ⟨token, nonce, idToken, _, verified, rfl, hparse, hmem, rfl⟩
      refine c.justified_attempt fun state first past' hpast => ?_
      have hfirst : (⟨.idTokenClaims idToken state.value.client (nonce.verifier c.lib), first⟩ :
          Σ op : ProviderOp, op.Answer) ∈ past' := by simp [hpast]
      cases first with
      | ok claims => exact .ret (houtcome state _ _ hfirst)
      | error error =>
        simp only
        split
        · exact .ret (houtcome state _ _ hfirst)
        · refine (c.justified_refresh _).bind fun past'' result _ => ?_
          cases result with
          | error e => exact .ret trivial
          | ok u =>
            refine c.justified_attempt fun state' second past₃ hpast₃ => .ret ?_
            exact houtcome state' _ _ (by simp [hpast₃])

/-! ## Where keys come from

From one call to a run: the snapshot that a call has read was stored by some call, which had fetched
it, or the provider was started with it. -/

/-- The configured issuer answered a discovery request with `metadata`: at start-up, in `tr`, or
later. -/
def Fetched (tr : List (Σ op : ProviderOp, op.Answer)) (past : List ProviderEvent)
    (metadata : ProviderMetadata) : Prop :=
  ⟨.discoverAwait c.config.issuerUrl, .ok metadata⟩ ∈ tr
    ∨ ∃ ev ∈ past, ev.Did (.discoverAwait c.config.issuerUrl) (.ok metadata)

/-- The client that verifies with the keys of `metadata`, as this service. -/
def clientOf (metadata : ProviderMetadata) : OidcClient :=
  buildClient metadata c.config.clientId c.config.clientSecret c.config.redirectUrl

variable {c} {tr : List (Σ op : ProviderOp, op.Answer)} {s : ProviderRun}

theorem Fetched.mono {past past' : List ProviderEvent} {metadata : ProviderMetadata}
    (h : c.Fetched tr past metadata) (hsub : ∀ ev ∈ past, ev ∈ past') :
    c.Fetched tr past' metadata := by
  rcases h with hstart | ⟨ev, hmem, hdid⟩
  · exact .inl hstart
  · exact .inr ⟨ev, hsub ev hmem, hdid⟩

/-- What an event of the run did is sourced, from what its task had been told before. -/
theorem sourced_of_happened (hs : Reachable (c.startedBy tr) s) {ev : ProviderEvent}
    {past : List ProviderEvent} (hev : Happened s.view.history ev past) :
    c.Sourced ((⟨ev.pre, past⟩ : ProviderView).trace ev.task) ev.op :=
  hs.of_startedIn.justified c.justified_body hev

/-- **The snapshot is always made of one published answer.** Induction on the run; only a write
changes it, and what is written was fetched by the same call. -/
theorem snapshot_fetched (hs : Reachable (c.startedBy tr) s) :
    ∃ metadata, c.Fetched tr s.view.history metadata
      ∧ s.view.world.state.value = c.stateOf metadata s.view.world.state.value.fetchedAt := by
  induction hs with
  | init w hw =>
    obtain ⟨-, metadata, hmem, hstate⟩ := (c.justified_startup (.ok ())).result hw.2
    exact ⟨metadata, .inl hmem, hstate⟩
  | @step s s' hs hstep ih =>
    obtain ⟨metadata, hfetched, hstate⟩ := ih
    cases hstep with
    | spawn i call hi => exact ⟨metadata, hfetched, hstate⟩
    | abandon i hi w hx =>
      rw [State.move_view, View.withWorld_world, hx.2]
      exact ⟨metadata, hfetched, hstate⟩
    | env w hx =>
      rw [View.withWorld_world, hx.2]
      exact ⟨metadata, hfetched, hstate⟩
    | @act i call op k hi a w hx =>
      rw [State.move_view, View.after_world, View.after_history]
      rcases ProviderWorld.state_of_exec hx with hsame | ⟨state, rfl, hwritten⟩
      · rw [hsame]
        exact ⟨metadata, hfetched.mono fun ev hev => List.mem_cons_of_mem _ hev, hstate⟩
      · rw [hwritten]
        obtain ⟨metadata', hmem, hstate'⟩ : c.Sourced (s.view.trace i) (.write state) :=
          (c.justified_body call).op (hs.leads_running hi)
        obtain ⟨ev, hev, -, hdid⟩ := View.mem_trace.mp hmem
        exact ⟨metadata', .inr ⟨ev, List.mem_cons_of_mem _ hev, hdid⟩, hstate'⟩

/-- The client of a verification is made of an answer published before it. -/
theorem client_fetched (hs : Reachable (c.startedBy tr) s) {ev : ProviderEvent}
    {past : List ProviderEvent} (hev : Happened s.view.history ev past) {token : IdToken}
    {client : OidcClient} {nonce : NonceVerifier}
    {answer : Except ClaimsVerificationError IdTokenClaims}
    (hdid : ev.Did (.idTokenClaims token client nonce) answer) :
    ∃ metadata, c.Fetched tr past metadata ∧ client = c.clientOf metadata := by
  obtain ⟨state, hmem, rfl⟩ :=
    hdid.elim (P := fun op _ => c.Sourced _ op) (sourced_of_happened hs hev)
  -- the snapshot was read at an earlier event, where it was the world's
  obtain ⟨read, hread, -, hdid⟩ := View.mem_trace.mp hmem
  obtain ⟨earlier, hearlier⟩ := happened_of_mem hread
  obtain ⟨s₁, k, hs₁, hview, hi, hx⟩ := hs.before (hev.trans hearlier)
  have hread : state = read.pre.state ∧ read.post = read.pre :=
    hdid.elim (P := fun op a => ProviderWorld.exec read.task read.pre op a read.post) hx
  obtain ⟨metadata, hfetched, hstate⟩ := snapshot_fetched hs₁
  rw [hview] at hfetched hstate
  rw [hread.1, hstate]
  exact ⟨metadata, hfetched.mono fun ev hmem => hearlier.past_mem hmem, rfl⟩

/-- Claims that a call has returned were verified by it, with keys the issuer had published. -/
theorem verified_of_returned (hs : Reachable (c.startedBy tr) s) {i : ℕ} {token : String}
    {nonce : NonceCheck} {claims : IdentityClaims}
    (hret : s.Returned i (.verifyIdToken token nonce) (.ok (some claims))) :
    ∃ ev ∈ s.view.history, ev.task = i ∧ ∃ idToken metadata verified,
      c.lib.parseIdToken token = .ok idToken ∧ c.Fetched tr s.view.history metadata
      ∧ ev.Did (.idTokenClaims idToken (c.clientOf metadata) (nonce.verifier c.lib)) (.ok verified)
      ∧ claims = identityFromIdTokenClaims verified := by
  obtain ⟨token', nonce', idToken, client, verified, hcall, hparse, hmem, hclaims⟩ :=
    hs.of_startedIn.justified_result c.justified_body hret
  cases hcall
  obtain ⟨ev, hev, hi, hdid⟩ := View.mem_trace.mp hmem
  obtain ⟨past, hhappened⟩ := happened_of_mem hev
  obtain ⟨metadata, hfetched, rfl⟩ := client_fetched hs hhappened hdid
  exact ⟨ev, hev, hi, idToken, metadata, verified, hparse,
    hfetched.mono fun ev hmem => hhappened.past_mem hmem, hdid, hclaims⟩

/-- **Keys come from the issuer.** -/
structure KeysFromIssuer (c : ProviderService) (tr : List (Σ op : ProviderOp, op.Answer))
    (s : ProviderRun) : Prop where
  /-- Nobody else is asked for discovery, not even by a call that is dropped before the answer. -/
  asked : (∀ x ∈ tr, c.AsksIssuer x.1) ∧ ∀ ev ∈ s.view.history, c.AsksIssuer ev.op
  /-- The metadata and the client of the snapshot are of the same answer. -/
  snapshot : ∃ metadata, c.Fetched tr s.view.history metadata
    ∧ s.view.world.state.value.metadata = metadata
    ∧ s.view.world.state.value.client = c.clientOf metadata
  /-- An introspection endpoint that is read off the provider is one the issuer has published. -/
  introspection : ∀ endpoint, s.view.world.state.value.introspectionEndpoint = some endpoint →
    ∃ metadata, c.Fetched tr s.view.history metadata
      ∧ discoveredIntrospectionEndpoint metadata = some endpoint
  verified : ∀ ev past, Happened s.view.history ev past → ∀ token client nonce answer,
    ev.Did (.idTokenClaims token client nonce) answer →
      ∃ metadata, c.Fetched tr past metadata ∧ client = c.clientOf metadata
  accepted : ∀ i token nonce claims,
    s.Returned i (.verifyIdToken token nonce) (.ok (some claims)) →
      ∃ ev ∈ s.view.history, ev.task = i ∧ ∃ idToken metadata verified,
        c.lib.parseIdToken token = .ok idToken ∧ c.Fetched tr s.view.history metadata
        ∧ ev.Did (.idTokenClaims idToken (c.clientOf metadata) (nonce.verifier c.lib))
            (.ok verified)
        ∧ claims = identityFromIdTokenClaims verified

/-- **Keys come from the issuer**, in any run and whoever else uses the provider: the snapshot, the
client of every verification, and everything that is asked for discovery, answered or not. -/
theorem keys_from_issuer (hs : Reachable (c.startedBy tr) s) : KeysFromIssuer c tr s := by
  obtain ⟨metadata, hfetched, hstate⟩ := snapshot_fetched hs
  constructor
  case asked =>
    constructor
    · obtain ⟨w, -, hstart⟩ := hs.exists_start
      exact ((c.justified_startup (.ok ())).result hstart).1
    · intro ev hmem
      obtain ⟨past, hev⟩ := happened_of_mem hmem
      exact (sourced_of_happened hs hev).asksIssuer
  case snapshot => exact ⟨metadata, hfetched, by rw [hstate]; rfl, by rw [hstate]; rfl⟩
  case introspection =>
    intro endpoint hendpoint
    rw [hstate] at hendpoint
    exact ⟨metadata, hfetched, hendpoint⟩
  case verified =>
    intro ev past hev token client nonce answer
    exact client_fetched hs hev
  case accepted =>
    intro i token nonce claims hret
    exact verified_of_returned hs hret

/-- The provider of the runs above, taking any text for a token. -/
def lenientProvider : ProviderService :=
  { bareProvider with lib := { bareProvider.lib with parseIdToken := fun text => .ok ⟨text⟩ } }

def claimsNaming (text : String) : IdTokenClaims where
  subject := text
  expiration := 4000000000
  email := none
  preferredUsername := none
  name := none
  nonce := some "nonce"
  members := none

/-- The start-up of that provider: the issuer answers at second zero. -/
def bareStart : List (Σ op : ProviderOp, op.Answer) :=
  [⟨.discoverStart "https://issuer", ()⟩, ⟨.discoverAwait "https://issuer", .ok bareMetadata⟩,
    ⟨.instantNow, ⟨0, Instant.zero_lt_max⟩⟩]

/-- Starting up with this answer gives the first snapshot of the runs above. -/
theorem returns_bareStart :
    Prog.Returns (lenientProvider.startup (.ok ())) bareStart (.ok bareSnapshot.value) := by
  rw [startup_eq]
  exact .call (.call (.call (.ret _)))

theorem accepted_keys_from_issuer : ∃ tr s, s.Returned 0 (.verifyIdToken "token" .present)
      (.ok (some (identityFromIdTokenClaims (claimsNaming "alice"))))
    ∧ KeysFromIssuer lenientProvider tr s := by
  have h₀ : Reachable (lenientProvider.startedBy bareStart)
      (⟨⟨⟨bareSnapshot, none, [], second 100⟩, []⟩, fun _ => .idle⟩ : ProviderRun) :=
    .init _ ⟨⟨by decide, rfl, rfl⟩, returns_bareStart⟩
  obtain ⟨s, hs, -, hret, -⟩ := h₀.submit (i := 0) (r := .verifyIdToken "token" .present) rfl
    (.act bareSnapshot _ ⟨rfl, rfl⟩ (.act (.ok (claimsNaming "alice")) _ rfl (.refl _ _)))
  exact ⟨_, s, hret, keys_from_issuer hs⟩

end ProviderService

end AuthnKit
