import AuthnKit.Oidc.Discovery
import AuthnKit.Oidc.LoginRuns

/-!
# AuthnKit — no rejection on stale keys

`verify_id_token` (`src/oidc/provider.rs`) may fail because the issuer has rotated its keys. Before
it says so to a client it goes through `refresh`, which may itself decide to do nothing: the
snapshot is young, or somebody else has just replaced it. With any number of calls interleaved, what
does a rejection for a key-related reason still mean?

* **`returns_refresh_ok`** — the ways in which a refresh succeeds.
* **`returns_verify`** — the behaviours of a verification.
* **`rejected_on_recent_keys`** — a token is rejected for its keys only after a second verification,
  against a snapshot that was younger than `min_refresh_interval` when the call looked at the clock
  in between, or that was stored after the first verification.
-/

namespace AuthnKit

open Interleave

namespace ProviderService

variable (c : ProviderService)

/-! ## Behaviours

What a call that rejects its token has done, read off its program: two verifications with a
successful refresh between them, where the first failed for keys. -/

/-- What a refresh that succeeded has seen or done. -/
inductive Settles : List (Σ op : ProviderOp, op.Answer) → Prop where
  /-- It looked at a snapshot that was young. -/
  | young {tr : List (Σ op : ProviderOp, op.Answer)} (before : List (Σ op : ProviderOp, op.Answer))
      {after : List (Σ op : ProviderOp, op.Answer)} {seen : Arc ProviderState} {now : Instant}
      (htr : tr = before ++ ⟨.instantNow, now⟩ :: after)
      (hseen : ⟨.read, seen⟩ ∈ before) (hfresh : c.Fresh seen.value now) : Settles tr
  /-- It found another snapshot under the lock than the one before. -/
  | overtaken {tr : List (Σ op : ProviderOp, op.Answer)}
      (between : List (Σ op : ProviderOp, op.Answer)) {after : List (Σ op : ProviderOp, op.Answer)}
      {observed current : Arc ProviderState}
      (htr : tr = ⟨.read, observed⟩ :: between ++ ⟨.read, current⟩ :: after)
      (hne : observed.ptr ≠ current.ptr) : Settles tr
  /-- It stored one itself. -/
  | stored {tr : List (Σ op : ProviderOp, op.Answer)} (state : ProviderState)
      (hmem : ⟨.write state, ()⟩ ∈ tr) : Settles tr

theorem returns_leave {result result' : Except AuthError Unit}
    {tr : List (Σ op : ProviderOp, op.Answer)} (h : Prog.Returns (leave result) tr result') :
    result' = result := by
  obtain ⟨_, rest, rfl, hrest⟩ := Prog.returns_call_iff.mp h
  exact (Prog.returns_ret_iff.mp hrest).2

theorem returns_fetch_ok {tr : List (Σ op : ProviderOp, op.Answer)}
    (h : Prog.Returns c.fetch tr (.ok ())) :
    ∃ state, (⟨.write state, ()⟩ : Σ op : ProviderOp, op.Answer) ∈ tr := by
  obtain ⟨_, tr₁, rfl, h₁⟩ := Prog.returns_call_iff.mp h
  obtain ⟨answer, tr₂, rfl, h₂⟩ := Prog.returns_call_iff.mp h₁
  cases answer with
  | error e => exact absurd (returns_leave h₂) (by simp)
  | ok metadata =>
    obtain ⟨now, tr₃, rfl, h₃⟩ := Prog.returns_call_iff.mp h₂
    obtain ⟨_, tr₄, rfl, -⟩ := Prog.returns_call_iff.mp h₃
    exact ⟨c.stateOf metadata now, by simp⟩

/-- **A refresh that succeeds** has seen a young snapshot, was overtaken, or has stored one. -/
theorem returns_refresh_ok {tr : List (Σ op : ProviderOp, op.Answer)}
    (h : Prog.Returns c.refresh tr (.ok ())) : c.Settles tr := by
  obtain ⟨observed, tr₁, rfl, h₁⟩ := Prog.returns_call_iff.mp h
  obtain ⟨now, tr₂, rfl, h₂⟩ := Prog.returns_call_iff.mp h₁
  by_cases hfresh : c.Fresh observed.value now
  · exact .young [⟨.read, observed⟩] rfl List.mem_cons_self hfresh
  · simp only [if_neg hfresh] at h₂
    obtain ⟨_, tr₃, rfl, h₃⟩ := Prog.returns_call_iff.mp h₂
    obtain ⟨current, tr₄, rfl, h₄⟩ := Prog.returns_call_iff.mp h₃
    by_cases hptr : observed.ptr ≠ current.ptr
    · exact .overtaken [⟨.instantNow, now⟩, ⟨.lock, ()⟩] rfl hptr
    · simp only [if_neg hptr] at h₄
      obtain ⟨now', tr₅, rfl, h₅⟩ := Prog.returns_call_iff.mp h₄
      by_cases hfresh' : c.Fresh current.value now'
      · exact .young [⟨.read, observed⟩, ⟨.instantNow, now⟩, ⟨.lock, ()⟩, ⟨.read, current⟩] rfl
          (by simp) hfresh'
      · simp only [if_neg hfresh'] at h₅
        obtain ⟨state, hmem⟩ := c.returns_fetch_ok h₅
        exact .stored state (by simp [hmem])

/-- A refresh that fails reports the discovery that failed, which is the service's fault. -/
theorem faults_refresh : Prog.Ends (fun res : Except AuthError Unit => ∀ e, res = .error e →
    e.isServiceFault = true) c.refresh := by
  have hleave : ∀ result : Except AuthError Unit, (∀ e, result = .error e →
      e.isServiceFault = true) → Prog.Ends (fun res : Except AuthError Unit => ∀ e, res = .error e →
        e.isServiceFault = true) (leave result) :=
    fun result h => .call fun _ => .ret h
  have hok : ∀ e : AuthError, (.ok () : Except AuthError Unit) = .error e →
      e.isServiceFault = true := fun e h => nomatch h
  refine .call fun observed => .call fun now => ?_
  split
  · exact .ret hok
  · refine .call fun _ => .call fun current => ?_
    split
    · exact hleave _ hok
    · refine .call fun now => ?_
      split
      · exact hleave _ hok
      · refine .call fun _ => .call fun answer => ?_
        cases answer with
        | ok metadata => exact .call fun _ => .call fun _ => hleave _ hok
        | error error =>
          refine hleave _ ?_
          rintro e ⟨⟩
          exact error.isServiceFault_toAuthError

/-- One verification: the snapshot it read, and the answer. -/
def attempted (idToken : IdToken) (nonce : NonceCheck) (state : Arc ProviderState)
    (answer : Except ClaimsVerificationError IdTokenClaims) :
    List (Σ op : ProviderOp, op.Answer) :=
  [⟨.read, state⟩, ⟨.idTokenClaims idToken state.value.client (nonce.verifier c.lib), answer⟩]

/-- The behaviours of a verification that is rejected. -/
inductive Rejects (token : String) (nonce : NonceCheck) (e : AuthError) :
    List (Σ op : ProviderOp, op.Answer) → Prop where
  | unparsed {text : String} (hparse : c.lib.parseIdToken token = .error text) :
      Rejects token nonce e []
  /-- The failure is not one that fresh keys might change. -/
  | first {idToken : IdToken} (hparse : c.lib.parseIdToken token = .ok idToken)
      (state : Arc ProviderState) {error : ClaimsVerificationError}
      (hstale : isPossiblyStaleKeys error = false) (he : e = error.toAuthError) :
      Rejects token nonce e (c.attempted idToken nonce state (.error error))
  | refresh {idToken : IdToken} (hparse : c.lib.parseIdToken token = .ok idToken)
      (state : Arc ProviderState) {error : ClaimsVerificationError}
      (hstale : isPossiblyStaleKeys error = true) {tr : List (Σ op : ProviderOp, op.Answer)}
      (hrefresh : Prog.Returns c.refresh tr (.error e)) :
      Rejects token nonce e (c.attempted idToken nonce state (.error error) ++ tr)
  | second {idToken : IdToken} (hparse : c.lib.parseIdToken token = .ok idToken)
      (state : Arc ProviderState) {error : ClaimsVerificationError}
      (hstale : isPossiblyStaleKeys error = true) {tr : List (Σ op : ProviderOp, op.Answer)}
      (hrefresh : Prog.Returns c.refresh tr (.ok ())) (state' : Arc ProviderState)
      {error' : ClaimsVerificationError} (he : e = error'.toAuthError) :
      Rejects token nonce e (c.attempted idToken nonce state (.error error) ++ tr
        ++ c.attempted idToken nonce state' (.error error'))

/-- **A rejection, unfolded**: the token does not parse, a first verification fails for good, the
refresh fails, or a second verification fails. -/
theorem returns_verify {token : String} {nonce : NonceCheck} {e : AuthError}
    {tr : List (Σ op : ProviderOp, op.Answer)}
    (h : Prog.Returns (c.body (.verifyIdToken token nonce)) tr (.error e)) :
    c.Rejects token nonce e tr := by
  rw [body_eq] at h
  simp only at h
  cases hparse : c.lib.parseIdToken token with
  | error text =>
    rw [hparse] at h
    obtain ⟨rfl, -⟩ := Prog.returns_ret_iff.mp h
    exact .unparsed hparse
  | ok idToken =>
    rw [hparse] at h
    obtain ⟨state, first, rest, rfl, hrest⟩ := returns_attempt h
    cases first with
    | ok claims => exact absurd (Prog.returns_ret_iff.mp hrest).2 (by simp [outcome])
    | error error =>
      cases hstale : isPossiblyStaleKeys error with
      | false =>
        simp only [hstale, Bool.not_false, if_true] at hrest
        obtain ⟨rfl, he⟩ := Prog.returns_ret_iff.mp hrest
        exact .first hparse state hstale (Except.error.inj he)
      | true =>
        simp only [hstale, Bool.not_true, Bool.false_eq_true, if_false] at hrest
        obtain ⟨tr₁, result, tr₂, rfl, hrefresh, hlast⟩ := Prog.returns_bind_iff.mp hrest
        cases result with
        | error e' =>
          obtain ⟨rfl, he⟩ := Prog.returns_ret_iff.mp hlast
          rw [List.append_nil, Except.error.inj he]
          exact .refresh hparse state hstale hrefresh
        | ok u =>
          obtain ⟨state', second, rest', rfl, hret⟩ := returns_attempt hlast
          obtain ⟨rfl, hsecond⟩ := Prog.returns_ret_iff.mp hret
          cases second with
          | ok claims => exact absurd hsecond (by simp [outcome])
          | error error' =>
            have hrejects : c.Rejects token nonce e
                (c.attempted idToken nonce state (.error error) ++ tr₁
                  ++ c.attempted idToken nonce state' (.error error')) :=
              .second hparse state hstale hrefresh state' (Except.error.inj hsecond)
            rwa [List.append_assoc] at hrejects

/-! ## The order of a run

Snapshots replace one another in the order of the run, and each was fetched later than the one
before it. -/

variable {c} {s : ProviderRun}

theorem Fresh.mono {state state' : ProviderState} {now : Instant} (h : c.Fresh state now)
    (hle : state.fetchedAt ≤ state'.fetchedAt) : c.Fresh state' now := by
  unfold Fresh at h ⊢
  simp only [Duration.lt_def, Instant.since, Instant.le_def] at h hle ⊢
  omega

/-- **The snapshot never gets older**: it lies in the order of the run. -/
theorem fetchedAt_ordered (hs : Reachable c.machine s) :
    s.view.Ordered fun w w' => w.state.value.fetchedAt ≤ w'.state.value.fetchedAt := by
  let R (w w' : ProviderWorld) : Prop := w.state.value.fetchedAt ≤ w'.state.value.fetchedAt
  have hrefl : ∀ w, R w w := fun _ => Nat.le_refl _
  have htrans : ∀ w₁ w₂ w₃, R w₁ w₂ → R w₂ w₃ → R w₁ w₃ := fun _ _ _ => Nat.le_trans
  induction hs with
  | init w hw => exact ⟨by simp, by simp, by rintro e past ⟨later, h⟩; exact absurd h (by simp)⟩
  | @step s s' hs hstep ih =>
    have hinv := c.inv_of_reachable (hs.step hstep)
    cases hstep with
    | spawn i call hi => exact ih
    | abandon i hi w hx =>
      refine View.Ordered.withWorld htrans ih ?_
      rw [hx.2]
      exact hrefl _
    | env w hx =>
      refine View.Ordered.withWorld htrans ih ?_
      rw [hx.2]
      exact hrefl _
    | @act i call op k hi a w hx =>
      refine View.Ordered.after hrefl htrans ih rfl ?_
      rcases ProviderWorld.state_of_exec hx with hsame | ⟨state, rfl, hwritten⟩
      · show s.view.world.state.value.fetchedAt ≤ w.state.value.fetchedAt
        rw [hsame]
        exact Nat.le_refl _
      · show s.view.world.state.value.fetchedAt ≤ w.state.value.fetchedAt
        rw [hwritten]
        exact (hinv.stored _ s.view.history ⟨[], rfl⟩ state rfl).2

/-! ## Recent keys

Recent is said relative to the first failure: the keys were young when the call next read the clock,
or they were stored after it, by whichever call. -/

/-- The keys of `state` are recent for call `i`, whose verification failed at `first`. -/
inductive Recent (c : ProviderService) (history : List ProviderEvent) (i : ℕ)
    (first : ProviderEvent) (state : Arc ProviderState) : Prop where
  /-- They were younger than the interval when the call next looked at the clock. -/
  | young {reading : ProviderEvent} {past : List ProviderEvent} {now : Instant}
      (hreading : Happened history reading past) (hi : reading.task = i) (hfirst : first ∈ past)
      (hdid : reading.Did .instantNow now) (hfresh : c.Fresh state.value now) :
      Recent c history i first state
  /-- They were stored after `first`: the address counts the stores. -/
  | stored (hptr : first.post.state.ptr < state.ptr) : Recent c history i first state

/-- The first verification of a call is behind whatever the call did after it. -/
theorem first_of_attempted {i : ℕ} {idToken : IdToken} {nonce : NonceCheck}
    {state : Arc ProviderState} {error : ClaimsVerificationError} {past : List ProviderEvent}
    {rest : List (Σ op : ProviderOp, op.Answer)} {w : ProviderWorld}
    (h : (⟨w, past⟩ : ProviderView).trace i
      = c.attempted idToken nonce state (.error error) ++ rest) :
    ∃ first ∈ past, first.task = i
      ∧ first.Did (.idTokenClaims idToken state.value.client (nonce.verifier c.lib))
        (.error error) := by
  have hmem : ⟨.idTokenClaims idToken state.value.client (nonce.verifier c.lib), .error error⟩
      ∈ (⟨w, past⟩ : ProviderView).trace i := by
    rw [h]
    simp [attempted]
  exact View.mem_trace.mp hmem

/-- The second verification of a call: the first one failed for keys, and a refresh in between
succeeded. -/
theorem recent_of_settles (hs : Reachable c.machine s) {i : ℕ} {idToken : IdToken}
    {nonce : NonceCheck} {state state' : Arc ProviderState} {error : ClaimsVerificationError}
    {tr : List (Σ op : ProviderOp, op.Answer)} (hsettles : c.Settles tr) {read : ProviderEvent}
    {past : List ProviderEvent} (hread : Happened s.view.history read past)
    (hdid : read.Did .read state')
    (htrace : ∀ w, (⟨w, past⟩ : ProviderView).trace i
      = c.attempted idToken nonce state (.error error) ++ tr) :
    ∃ first ∈ past, first.task = i
      ∧ first.Did (.idTokenClaims idToken state.value.client (nonce.verifier c.lib)) (.error error)
      ∧ Recent c s.view.history i first state' := by
  have hptr := hs.ordered c.machine_advances
  have hage := fetchedAt_ordered hs
  have hnow := c.state_of_read hs hread hdid
  cases hsettles with
  | @young before after seen now htr hseen hfresh =>
    have hpos := htrace s.view.world
    rw [htr, ← List.append_assoc] at hpos
    obtain ⟨reading, past', hreading, hi, hclock, htrace'⟩ := View.event_of_trace hpos
    obtain ⟨first, hmem, htask, hfailed⟩ := first_of_attempted (htrace' s.view.world)
    refine ⟨first, hreading.past_mem hmem, htask, hfailed, ?_⟩
    -- the snapshot it saw is no younger than the one it ends with
    have hread' : ⟨.read, seen⟩ ∈ (⟨s.view.world, past'⟩ : ProviderView).trace i := by
      rw [htrace']
      exact List.mem_append_right _ hseen
    obtain ⟨look, hlook, -, hlooked⟩ := View.mem_trace.mp hread'
    obtain ⟨past₂, hpast₂⟩ := happened_of_mem (hread.past_mem (hreading.past_mem hlook))
    have hle := hage.past read past hread look (hreading.past_mem hlook)
    rw [(c.state_of_read hs hpast₂ hlooked).2, hnow.1] at hle
    exact .young (hread.trans hreading) hi hmem hclock (hfresh.mono hle)
  | @overtaken between after observed current htr hne =>
    have hpos := htrace s.view.world
    rw [htr, ← List.append_assoc] at hpos
    obtain ⟨look, past', hlook, -, hlooked, htrace'⟩ := View.event_of_trace hpos
    have hpos' := htrace' s.view.world
    obtain ⟨look₀, past₀, hlook₀, -, hlooked₀, htrace₀⟩ := View.event_of_trace hpos'
    obtain ⟨first, hmem, htask, hfailed⟩ :=
      first_of_attempted ((htrace₀ s.view.world).trans (List.append_nil _).symm)
    refine ⟨first, hlook.past_mem (hlook₀.past_mem hmem), htask, hfailed, .stored ?_⟩
    -- first, then the two snapshots of the refresh, then the one it ends with
    have h₁ := (hptr.past look₀ past₀ (hread.trans (hlook.trans hlook₀)) first hmem).2
    have h₂ := (hptr.past look past' (hread.trans hlook) look₀ hlook₀.mem).2
    have h₃ := (hptr.past read past hread look hlook.mem).2
    have hobserved := c.state_of_read hs (hread.trans (hlook.trans hlook₀)) hlooked₀
    have hcurrent := c.state_of_read hs (hread.trans hlook) hlooked
    rw [hobserved.1] at h₁
    rw [hobserved.2, hcurrent.1] at h₂
    rw [hcurrent.2, hnow.1] at h₃
    omega
  | @stored written hmem =>
    obtain ⟨before, after, htr⟩ := List.append_of_mem hmem
    have hpos := htrace s.view.world
    rw [htr, ← List.append_assoc] at hpos
    obtain ⟨store, past', hstore, -, hwrote, htrace'⟩ := View.event_of_trace hpos
    obtain ⟨first, hmem, htask, hfailed⟩ := first_of_attempted (htrace' s.view.world)
    refine ⟨first, hstore.past_mem hmem, htask, hfailed, .stored ?_⟩
    have h₁ := (hptr.past store past' (hread.trans hstore) first hmem).2
    have h₂ := (hptr.past read past hread store hstore.mem).2
    rw [c.state_of_write hs (hread.trans hstore) hwrote, hnow.1] at h₂
    simp only at h₂
    omega

/-- What a key-related rejection of call `i` rests on: a failed verification, and a second one,
with the keys of `state`, that were recent by then. -/
structure RejectedOn (c : ProviderService) (s : ProviderRun) (i : ℕ) (nonce : NonceCheck)
    (e : AuthError) (idToken : IdToken) (first : ProviderEvent) (state : Arc ProviderState) :
    Prop where
  failed : first.task = i ∧ ∃ client error, isPossiblyStaleKeys error = true
    ∧ first.Did (.idTokenClaims idToken client (nonce.verifier c.lib)) (.error error)
  again : ∃ last past error, Happened s.view.history last past ∧ last.task = i ∧ first ∈ past
    ∧ last.Did (.idTokenClaims idToken state.value.client (nonce.verifier c.lib)) (.error error)
    ∧ e = error.toAuthError
  recent : Recent c s.view.history i first state

/-- **No rejection on stale keys.** In every run, a call that rejects its token with a failure that
stale keys would explain has verified it again, against keys that were recent. -/
theorem rejected_on_recent_keys (hs : Reachable c.machine s) {i : ℕ} {token : String}
    {nonce : NonceCheck} {e : AuthError}
    (hret : s.Returned i (.verifyIdToken token nonce) (.error e))
    {error : ClaimsVerificationError} (hstale : isPossiblyStaleKeys error = true)
    (he : e = error.toAuthError) {ev : ProviderEvent} (hev : ev ∈ s.view.history)
    (hi : ev.task = i) {idToken : IdToken} {client : OidcClient} {check : NonceVerifier}
    (hdid : ev.Did (.idTokenClaims idToken client check) (.error error)) :
    ∃ idToken first state, RejectedOn c s i nonce e idToken first state := by
  have hmem : ⟨.idTokenClaims idToken client check, .error error⟩ ∈ s.view.trace i :=
    View.mem_trace.mpr ⟨ev, hev, hi, hdid⟩
  have hrejects := c.returns_verify (hs.returns hret)
  generalize htrace : s.view.trace i = tr at hrejects hmem
  cases hrejects with
  | unparsed hparse => exact absurd hmem List.not_mem_nil
  | first hparse state hnot he' =>
    -- the only verification there was failed otherwise
    simp only [attempted, List.mem_cons, List.not_mem_nil, or_false] at hmem
    rcases hmem with hop | hop
    · cases hop
    · cases hop
      rw [hstale] at hnot
      cases hnot
  | refresh hparse state hstale' hrefresh =>
    -- a discovery that failed is not reported as the client's fault
    have hfault : Prog.Ends (fun res : Except AuthError Unit => ∀ e, res = .error e →
        e.isServiceFault = true) c.refresh := c.faults_refresh
    have hservice := hfault.of_returns hrefresh e rfl
    rw [he, ClaimsVerificationError.not_isServiceFault_toAuthError] at hservice
    cases hservice
  | @second idToken' hparse state error₀ hstale₀ tr' hrefresh state' error' he' =>
    have hpos : s.view.trace i = (c.attempted idToken' nonce state (.error error₀) ++ tr'
        ++ [⟨.read, state'⟩]) ++ [⟨.idTokenClaims idToken' state'.value.client
          (nonce.verifier c.lib), .error error'⟩] := by
      rw [htrace]
      simp [attempted]
    obtain ⟨last, past, hlast, hi', hfailed', hpast⟩ := View.event_of_trace hpos
    obtain ⟨read, past', hread, -, hlooked, hpast'⟩ :=
      View.event_of_trace (hpast s.view.world)
    obtain ⟨first, hfirst, htask, hfailed, hrecent⟩ :=
      recent_of_settles hs (c.returns_refresh_ok hrefresh) (hlast.trans hread) hlooked hpast'
    exact ⟨idToken', first, state', ⟨htask, _, error₀, hstale₀, hfailed⟩,
      ⟨last, past, error', hlast, hi', hread.past_mem hfirst, hfailed', he'⟩, hrecent⟩

def noMatchingKey : ClaimsVerificationError := .signatureVerification .noMatchingKey "no key"

/-- A call that fetches new keys, and rejects its token with them all the same. -/
theorem rejected_after_rotation : ∃ s : ProviderRun,
    s.Returned 0 (.verifyIdToken "token" .present) (.error noMatchingKey.toAuthError)
    ∧ ∃ idToken first state,
        RejectedOn lenientProvider s 0 .present noMatchingKey.toAuthError idToken first state := by
  have h₀ : Reachable lenientProvider.machine
      (⟨⟨⟨bareSnapshot, none, [], second 100⟩, []⟩, fun _ => .idle⟩ : ProviderRun) :=
    .init _ ⟨by decide, rfl, rfl⟩
  let fresh : Arc ProviderState := ⟨1, lenientProvider.stateOf bareMetadata (second 100)⟩
  have hlone : ∃ v, Alone lenientProvider.machine 0 (.verifyIdToken "token" .present)
      ⟨⟨bareSnapshot, none, [], second 100⟩, []⟩
      (lenientProvider.body (.verifyIdToken "token" .present)) v
      (.ret (.error noMatchingKey.toAuthError))
      ∧ ∃ ev ∈ v.history, ev.task = 0 ∧ ∃ client check,
          ev.Did (.idTokenClaims ⟨"token"⟩ client check) (.error noMatchingKey) := by
    refine ⟨_, .act bareSnapshot _ ⟨rfl, rfl⟩ (.act (.error noMatchingKey) _ rfl
      (.act bareSnapshot _ ⟨rfl, rfl⟩ (.act (second 100) _ ⟨rfl, rfl⟩ (.act () _ ⟨rfl, rfl⟩
        (.act bareSnapshot _ ⟨rfl, rfl⟩ (.act (second 100) _ ⟨rfl, rfl⟩ (.act () _ rfl
          (.act (.ok bareMetadata) _ rfl (.act (second 100) _ ⟨rfl, rfl⟩ (.act () _ rfl
            (.act () _ rfl (.act fresh _ ⟨rfl, rfl⟩ (.act (.error noMatchingKey) _ rfl
              (.refl _ _)))))))))))))), ?_⟩
    exact ⟨_, List.mem_cons_self, rfl, _, _, rfl⟩
  obtain ⟨v, hlone, ev, hev, hi, client, check, hdid⟩ := hlone
  obtain ⟨s, hs, hview, hret, -⟩ := h₀.submit rfl hlone
  exact ⟨s, hret, rejected_on_recent_keys hs hret rfl rfl (hview ▸ hev) hi hdid⟩

end ProviderService

end AuthnKit
