import AuthnKit.Oidc.RefreshInvariant

/-!
# AuthnKit — refreshing a provider, over whole runs

What the refresh lock and the age of the snapshot achieve together, for any number of calls in
any order.

* **`discovery_rate_limited`** — fetches start `min_refresh_interval` apart in every run whose
  failing fetches last that long. A fetch that fails stores nothing, so nothing holds back the next
  call: `two_failing_fetches`.
* **`refresh_single_flight`** — one fetch at a time; a call that was overtaken by a store returns
  without fetching; the snapshot changes by successful fetches only, and not backwards.
-/

namespace AuthnKit

open Interleave

namespace ProviderService

variable (c : ProviderService)

/-! ## A call on its own

One call with nobody in between, in the full machine or under restrictions: the runs of this file
are put together from these. -/

def afterFetch (state : Arc ProviderState) (now : Instant) :
    Except DiscoveryError ProviderMetadata → Arc ProviderState
  | .error _ => state
  | .ok metadata => ⟨state.ptr + 1, c.stateOf metadata now⟩

/-- A fetch whose request is out goes on alone, whatever it is answered. -/
theorem alone_awaiting
    (ok : ℕ → ProviderView → (op : ProviderOp) → op.Answer → ProviderWorld → Prop)
    (drop : ℕ → ProviderView → ProviderOp → ProviderWorld → Prop)
    (tick : ProviderWorld → ProviderWorld → Prop) (i : ℕ) (state : Arc ProviderState)
    (now : Instant) (past : List ProviderEvent) (answer : Except DiscoveryError ProviderMetadata)
    (hplain : ∀ v op a w, (∀ issuer, op ≠ .discoverAwait issuer) → ok i v op a w)
    (hanswer : ∀ v w, ok i v (.discoverAwait c.config.issuerUrl) answer w) :
    ∃ v' res, Alone (c.machine.restrict ok drop tick) i .refresh
        ⟨⟨state, some i, [i], now⟩, past⟩
        (.call (.discoverAwait c.config.issuerUrl) fun answer => (match answer with
          | .error e => leave (.error e.toAuthError)
          | .ok metadata => .call .instantNow fun now =>
              .call (.write (c.stateOf metadata now)) fun _ => leave (.ok ()))
          >>= fun result => .ret (result.map fun _ => none)) v' (.ret res)
      ∧ v'.world = ⟨c.afterFetch state now answer, none, [], now⟩ := by
  cases answer with
  | error e =>
    exact ⟨_, _, .act (.error e) _ ⟨rfl, hanswer _ _⟩
      (.act () _ ⟨rfl, hplain _ _ _ _ (by simp)⟩ (.refl _ _)), by simp [afterFetch]⟩
  | ok metadata =>
    exact ⟨_, _, .act (.ok metadata) _ ⟨rfl, hanswer _ _⟩
      (.act now _ ⟨⟨rfl, rfl⟩, hplain _ _ _ _ (by simp)⟩
        (.act () _ ⟨rfl, hplain _ _ _ _ (by simp)⟩
          (.act () _ ⟨rfl, hplain _ _ _ _ (by simp)⟩ (.refl _ _)))), by simp [afterFetch]⟩

/-- A call that goes on alone while the snapshot is old, in no time: it takes the lock, and asks. -/
theorem alone_fetch (ok : ℕ → ProviderView → (op : ProviderOp) → op.Answer → ProviderWorld → Prop)
    (drop : ℕ → ProviderView → ProviderOp → ProviderWorld → Prop)
    (tick : ProviderWorld → ProviderWorld → Prop) (i : ℕ) (state : Arc ProviderState)
    (now : Instant) (history : List ProviderEvent) (hold : ¬ c.Fresh state.value now)
    (answer : Except DiscoveryError ProviderMetadata)
    (hok : ∀ v op a w, (∀ issuer e, (⟨op, a⟩ : Σ op : ProviderOp, op.Answer)
      = ⟨.discoverAwait issuer, .error e⟩ → answer = .error e) → ok i v op a w) :
    ∃ v' res, Alone (c.machine.restrict ok drop tick) i .refresh
        ⟨⟨state, none, [], now⟩, history⟩ (c.body .refresh) v' (.ret res)
      ∧ v'.world = ⟨c.afterFetch state now answer, none, [], now⟩
      ∧ ∃ start earlier, Happened v'.history start (earlier ++ history) ∧ Starts start
        ∧ start.pre.now = now ∧ start.post.now = now := by
  have hplain : ∀ v op a w, (∀ issuer, op ≠ .discoverAwait issuer) → ok i v op a w := by
    intro v op a w hop
    exact hok v op a w fun issuer e heq => absurd (congrArg Sigma.fst heq) (hop issuer)
  have hanswer : ∀ v w, ok i v (.discoverAwait c.config.issuerUrl) answer w := by
    intro v w
    refine hok v _ _ w fun issuer e heq => ?_
    cases heq
    rfl
  -- the world before the lock, under it, and with the request sent
  set w₁ : ProviderWorld := ⟨state, none, [], now⟩
  set w₂ : ProviderWorld := ⟨state, some i, [], now⟩
  set w₃ : ProviderWorld := ⟨state, some i, [i], now⟩
  obtain ⟨v', res, htail, hworld⟩ := c.alone_awaiting ok drop tick i state now
    (⟨i, .refresh, .discoverStart c.config.issuerUrl, (), w₂, w₃⟩
      :: ([⟨i, .refresh, .instantNow, now, w₂, w₂⟩, ⟨i, .refresh, .read, state, w₂, w₂⟩,
        ⟨i, .refresh, .lock, (), w₁, w₂⟩, ⟨i, .refresh, .instantNow, now, w₁, w₁⟩,
        ⟨i, .refresh, .read, state, w₁, w₁⟩] ++ history)) answer hplain hanswer
  obtain ⟨later, hlater⟩ := htail.history
  refine ⟨v', res, ?_, hworld, _, _, ⟨later, hlater⟩, ?_, rfl, rfl⟩
  · rw [body_eq]
    refine .act state _ ⟨⟨rfl, rfl⟩, hplain _ _ _ _ (by simp)⟩
      (.act now _ ⟨⟨rfl, rfl⟩, hplain _ _ _ _ (by simp)⟩ ?_)
    simp only [if_neg hold]
    refine .act () _ ⟨⟨rfl, rfl⟩, hplain _ _ _ _ (by simp)⟩
      (.act state _ ⟨⟨rfl, rfl⟩, hplain _ _ _ _ (by simp)⟩ ?_)
    simp only [ne_eq, not_true_eq_false, if_false]
    refine .act now _ ⟨⟨rfl, rfl⟩, hplain _ _ _ _ (by simp)⟩ ?_
    simp only [if_neg hold]
    exact .act () _ ⟨rfl, hplain _ _ _ _ (by simp)⟩ htail
  · exact ⟨_, rfl⟩

/-- Two calls, one after the other, each on a snapshot that is old by then. -/
theorem reachable_two_refreshes
    (ok : ℕ → ProviderView → (op : ProviderOp) → op.Answer → ProviderWorld → Prop)
    (drop : ℕ → ProviderView → ProviderOp → ProviderWorld → Prop) (state : Arc ProviderState)
    (now₁ now₂ : Instant) (answer : Except DiscoveryError ProviderMetadata)
    (hfetched : state.value.fetchedAt ≤ now₁) (hle : now₁ ≤ now₂)
    (hold₁ : ¬ c.Fresh state.value now₁)
    (hold₂ : ¬ c.Fresh (c.afterFetch state now₁ answer).value now₂)
    (hok : ∀ i v op a w, (∀ issuer e, (⟨op, a⟩ : Σ op : ProviderOp, op.Answer)
      = ⟨.discoverAwait issuer, .error e⟩ → answer = .error e) → ok i v op a w) :
    ∃ s : ProviderRun, Reachable (c.machine.restrict ok drop fun _ _ => True) s
      ∧ (∃ res, s.Returned 0 .refresh res)
      ∧ ∃ ev past, Happened s.view.history ev past ∧ Starts ev ∧ ev.pre.now = now₂
        ∧ ∃ ev' ∈ past, Starts ev' ∧ ev'.post.now = now₁ := by
  have h₀ : Reachable (c.machine.restrict ok drop fun _ _ => True)
      (⟨⟨⟨state, none, [], now₁⟩, []⟩, fun _ => .idle⟩ : ProviderRun) :=
    .init _ ⟨hfetched, rfl, rfl⟩
  obtain ⟨v₁, res, hlone₁, hworld₁, start₁, earlier₁, hstart₁, hs₁, -, hpost₁⟩ :=
    c.alone_fetch ok drop (fun _ _ => True) 0 state now₁ [] hold₁ answer (hok 0)
  obtain ⟨s₁, hreach₁, hview₁, htask₁, hframe₁⟩ := h₀.submit rfl hlone₁
  -- the first call is over; time passes to the second
  obtain ⟨v₂, _, hlone₂, -, start₂, earlier₂, hstart₂, hs₂, hpre₂, -⟩ :=
    c.alone_fetch ok drop (fun _ _ => True) 1 (c.afterFetch state now₁ answer) now₂ v₁.history hold₂
      answer (hok 1)
  have hlater : Reachable (c.machine.restrict ok drop fun _ _ => True)
      ⟨s₁.view.withWorld ⟨c.afterFetch state now₁ answer, none, [], now₂⟩, s₁.tasks⟩ := by
    refine hreach₁.step (.env _ ⟨?_, trivial⟩)
    rw [hview₁, hworld₁]
    exact ⟨hle, rfl⟩
  rw [hview₁] at hlater
  obtain ⟨s₂, hreach₂, hview₂, -, hframe₂⟩ :=
    hlater.submit (i := 1) (hframe₁ 1 (by decide)) hlone₂
  refine ⟨s₂, hreach₂, ⟨res, (hframe₂ 0 (by decide)).trans htask₁⟩, start₂, _,
    hview₂ ▸ hstart₂, hs₂, hpre₂, start₁, ?_, hs₁, hpost₁⟩
  exact List.mem_append_right earlier₂ hstart₁.mem

/-! ## The rate limit

What keeps fetches apart is the age of the snapshot. A fetch that leaves no new snapshot behind has
to keep them apart by the time it takes. -/

/-- Any two discovery fetches start at least `min_refresh_interval` apart. -/
def RateLimited (s : ProviderRun) : Prop :=
  ∀ ev past, Happened s.view.history ev past → Starts ev → ∀ ev' ∈ past, Starts ev' →
    ev'.post.now.nanos + c.config.minRefreshInterval.nanos ≤ ev.pre.now.nanos

/-- **Discovery is rate-limited** in every run whose fetches, when they fail or are given up, do so
no sooner than the interval after their start. -/
theorem discovery_rate_limited {s : ProviderRun}
    (hs : Reachable (c.lingering c.config.minRefreshInterval.nanos) s) : c.RateLimited s := by
  have hinv : c.Inv c.config.minRefreshInterval.nanos s.view :=
    (hs.holds (valid (Nat.le_refl _))).inv
  exact hinv.spaced

/-! ### Two runs

Two calls whose fetches fail at once, and two whose fetches succeed. -/

/-- A provider with the default interval of thirty seconds, of which only discovery is used. -/
def bareProvider : ProviderService where
  config := { issuerUrl := "https://issuer", clientId := "app", redirectUrl := "https://app/cb" }
  lib :=
    { parseIdToken := fun _ => .error "not a JWT"
      nonceEquals := fun _ _ => .error "nonce"
      missingTokenUrl := "No token endpoint URL specified"
      authorizeUrl := fun _ => "https://issuer/authorize" }

def bareMetadata : ProviderMetadata := ⟨"https://issuer/authorize", none, none, []⟩

def bareSnapshot : Arc ProviderState := ⟨0, bareProvider.stateOf bareMetadata ⟨0, Instant.zero_lt_max⟩⟩

def second (n : ℕ) (h : n < 2 ^ 63 := by decide) : Instant := ⟨n * 1000000000, by omega⟩

/-- **A fetch that fails holds nothing back**: two calls at second 100, both on the snapshot of
second 0, and the issuer is asked twice. -/
theorem two_failing_fetches : ∃ s : ProviderRun, Reachable bareProvider.machine s
    ∧ ¬ bareProvider.RateLimited s := by
  obtain ⟨s, hs, -, ev, past, hev, hstart, hnow, ev', hmem, hstart', hnow'⟩ :=
    bareProvider.reachable_two_refreshes (fun _ _ _ _ _ => True) (fun _ _ _ _ => True) bareSnapshot
      (second 100) (second 100) (.error (.request "connection refused")) (by decide) (by decide)
      (by decide) (by decide) fun _ _ _ _ _ _ => trivial
  refine ⟨s, hs.of_restrict, fun hlimited => ?_⟩
  have hapart := hlimited ev past hev hstart ev' hmem hstart'
  rw [hnow, hnow'] at hapart
  exact absurd hapart (by decide)

/-- Where they succeed, the second one is sent once the first snapshot is old. -/
theorem two_fetches_apart : ∃ s : ProviderRun,
    (∃ ev past, Happened s.view.history ev past ∧ Starts ev ∧ ∃ ev' ∈ past, Starts ev')
      ∧ bareProvider.RateLimited s := by
  obtain ⟨s, hs, -, ev, past, hev, hstart, -, ev', hmem, hstart', -⟩ :=
    bareProvider.reachable_two_refreshes (FailsLate bareProvider.config.minRefreshInterval.nanos) _
      bareSnapshot (second 100) (second 140) (.ok bareMetadata) (by decide) (by decide) (by decide)
      (by decide) fun _ _ _ _ _ h issuer e heq => nomatch h issuer e heq
  exact ⟨s, ⟨ev, past, hev, hstart, ev', hmem, hstart'⟩, bareProvider.discovery_rate_limited hs⟩

/-! ## Single flight

The same invariant without a gap holds in all runs, and says that fetches are made one at a time. -/

/-- Every run is one whose failing fetches last for no time at all. -/
theorem lingering_zero {s : ProviderRun} (hs : Reachable c.machine s) :
    Reachable (c.lingering 0) s := by
  have hpast : ∀ s : ProviderRun, Reachable c.machine s → ∀ i (now : Instant),
      s.view.world.now ≤ now → Lingers 0 i s.view now := by
    intro s hs i now hnow start hmem _ _
    have hstart : start.post.now.nanos ≤ s.view.world.now.nanos :=
      ((hs.ordered c.machine_advances).last start hmem).1
    rw [Instant.le_def] at hnow
    omega
  refine hs.to_restrict ?_ ?_ fun _ _ _ => trivial
  · intro s hs i op a w hx _ _ _
    have hnow := ProviderWorld.now_of_exec (show ProviderWorld.exec i s.view.world op a w from hx)
    exact hpast s hs i w.now (Nat.le_of_eq (congrArg Instant.nanos hnow.symm))
  · intro s hs i op w hx
    have hw := (show ProviderWorld.abandon i s.view.world op w from hx).2
    exact hpast s hs i w.now (by rw [hw]; exact Nat.le_refl _)

theorem inv_of_reachable {s : ProviderRun} (hs : Reachable c.machine s) : c.Inv 0 s.view :=
  ((c.lingering_zero hs).holds (valid (Nat.zero_le _))).inv

/-! ### A call that was overtaken

A call that waits for the lock may find, once it has it, that another call has stored a snapshot. It
compares addresses, which are never used again. -/

def IsLock : ProviderOp → Prop
  | .lock => True
  | _ => False

theorem atMost_leave (res : Except AuthError Unit) : Prog.AtMost IsLock 0 (leave res) :=
  .skip (by simp [IsLock]) fun _ => .ret 0 _

/-- Under the lock it is not taken again. -/
theorem atMost_locked (observed : Arc ProviderState) :
    Prog.AtMost IsLock 0 (c.locked observed) := by
  refine .skip (by simp [IsLock]) fun current => ?_
  by_cases hptr : observed.ptr ≠ current.ptr
  · rw [if_pos hptr]
    exact atMost_leave _
  · rw [if_neg hptr]
    refine .skip (by simp [IsLock]) fun now => ?_
    by_cases hfresh : c.Fresh current.value now
    · rw [if_pos hfresh]
      exact atMost_leave _
    · rw [if_neg hfresh]
      refine .skip (by simp [IsLock]) fun _ => .skip (by simp [IsLock]) fun answer => ?_
      cases answer with
      | error e => exact atMost_leave _
      | ok metadata =>
        exact .skip (by simp [IsLock]) fun _ => .skip (by simp [IsLock]) fun _ => atMost_leave _

/-- What is left of a call to `refresh` once it has the lock. -/
def rest (observed : Arc ProviderState) :
    ProviderProg (Except AuthError (Option IdentityClaims)) :=
  c.locked observed >>= fun result => .ret (result.map fun _ => none)

/-- **On the way to the lock** a call reads the snapshot and the clock, once each. -/
theorem leads_to_lock {tr : List (Σ op : ProviderOp, op.Answer)}
    {k : Unit → ProviderProg (Except AuthError (Option IdentityClaims))}
    (h : Prog.Leads (c.body .refresh) tr (.call .lock k)) :
    ∃ observed now, tr = [⟨.read, observed⟩, ⟨.instantNow, now⟩] ∧ k = fun _ => c.rest observed := by
  rw [body_eq] at h
  rcases Prog.leads_call_iff.mp h with ⟨_, hop⟩ | ⟨observed, tr₁, rfl, h₁⟩
  · cases hop
  · rcases Prog.leads_call_iff.mp h₁ with ⟨_, hop⟩ | ⟨now, tr₂, rfl, h₂⟩
    · cases hop
    · by_cases hfresh : c.Fresh observed.value now
      · simp only [if_pos hfresh] at h₂
        cases (Prog.leads_ret_iff.mp h₂).2
      · simp only [if_neg hfresh] at h₂
        rcases Prog.leads_call_iff.mp h₂ with ⟨rfl, hop⟩ | ⟨_, tr₃, rfl, h₃⟩
        · exact ⟨observed, now, rfl, (Prog.call.inj hop).2 |> eq_of_heq⟩
        · -- there is no second lock
          have hnone : Prog.AtMost IsLock 0 (c.rest observed) :=
            (c.atMost_locked observed).bind (m := 0) fun _ => .ret 0 _
          cases (hnone.none h₃).2 with
          | skip hop _ => exact absurd trivial hop

/-- **Overtaken**: a call that finds another snapshot under the lock than the one it observed
returns `Ok` and fetches nothing. -/
theorem leads_rest_of_ne {observed : Arc ProviderState} {tr : List (Σ op : ProviderOp, op.Answer)}
    {p : ProviderProg (Except AuthError (Option IdentityClaims))}
    (h : Prog.Leads (c.rest observed) tr p)
    (hne : ∀ current, ⟨.read, current⟩ ∈ tr → observed.ptr ≠ current.ptr) :
    (∀ issuer, ⟨.discoverStart issuer, ()⟩ ∉ tr) ∧ ∀ res, p = .ret res → res = .ok none := by
  rcases Prog.leads_call_iff.mp h with ⟨rfl, rfl⟩ | ⟨current, tr₁, rfl, h₁⟩
  · refine ⟨by simp, ?_⟩
    intro res hres
    cases hres
  · have hptr : observed.ptr ≠ current.ptr := hne current List.mem_cons_self
    simp only [if_pos hptr] at h₁
    rcases Prog.leads_call_iff.mp h₁ with ⟨rfl, rfl⟩ | ⟨u, tr₂, rfl, h₂⟩
    · refine ⟨by simp, ?_⟩
      intro res hres
      cases hres
    · obtain ⟨rfl, rfl⟩ := Prog.leads_ret_iff.mp h₂
      refine ⟨by simp, ?_⟩
      intro res hres
      exact (Prog.ret.inj hres).symm

/-- A call that observed the snapshot before a store and got the lock after it. -/
structure Overtaken (s : ProviderRun) (i : ℕ) : Prop where
  submitted : s.Submitted i .refresh
  order : ∃ lock pastLock write pastWrite observed, Happened s.view.history lock pastLock
    ∧ lock.task = i ∧ lock.Did .lock () ∧ Happened pastLock write pastWrite
    ∧ (∃ state, write.Did (.write state) ()) ∧ observed ∈ pastWrite ∧ observed.task = i
    ∧ ∃ state, observed.Did .read state

/-- What a read answers, as an event of a run: the snapshot there was, which it leaves. -/
theorem state_of_read {s : ProviderRun} (hs : Reachable c.machine s) {ev : ProviderEvent}
    {past : List ProviderEvent} (hev : Happened s.view.history ev past) {state : Arc ProviderState}
    (hdid : ev.Did .read state) : ev.pre.state = state ∧ ev.post.state = state := by
  have hx : ProviderWorld.exec ev.task ev.pre ev.op ev.ans ev.post := hs.exec_of_happened hev
  obtain ⟨task, req, op, ans, pre, post⟩ := ev
  cases hdid
  obtain ⟨hans, hpost⟩ : ans = pre.state ∧ post = pre := hx
  exact ⟨hans.symm, (congrArg ProviderWorld.state hpost).trans hans.symm⟩

/-- What a write leaves, as an event of a run: what was written, under a new address. -/
theorem state_of_write {s : ProviderRun} (hs : Reachable c.machine s) {ev : ProviderEvent}
    {past : List ProviderEvent} (hev : Happened s.view.history ev past) {state : ProviderState}
    (hdid : ev.Did (.write state) ()) : ev.post.state = ⟨ev.pre.state.ptr + 1, state⟩ := by
  have hx : ProviderWorld.exec ev.task ev.pre ev.op ev.ans ev.post := hs.exec_of_happened hev
  obtain ⟨task, req, op, ans, pre, post⟩ := ev
  cases hdid
  rw [show post = _ from hx]

/-- **A call that was overtaken joins the refresh it was overtaken by**: it fetches nothing, and if
it returns it returns `Ok`. -/
theorem Overtaken.joins {s : ProviderRun} (hs : Reachable c.machine s) {i : ℕ}
    (h : Overtaken s i) :
    (∀ ev ∈ s.view.history, ev.task = i → ¬ Starts ev)
      ∧ ∀ res, s.Returned i .refresh res → res = .ok none := by
  obtain ⟨lock, pastLock, write, pastWrite, observed, hlock, hi, hdid, hwrite, ⟨stored, hstored⟩,
    hobserved, hiobs, state, hread⟩ := h.order
  have hord := hs.ordered c.machine_advances
  obtain ⟨later, hlater, htrace⟩ := View.trace_split hlock hi
  rw [show (⟨lock.op, lock.ans⟩ : Σ op : ProviderOp, op.Answer) = ⟨.lock, ()⟩ from hdid] at htrace
  -- the pointer has moved between the observation and the lock
  have hobsmem : observed ∈ pastLock := hwrite.past_mem hobserved
  obtain ⟨pastObserved, hobs⟩ := happened_of_mem (hlock.past_mem hobsmem)
  have hptr₁ : observed.post.state.ptr ≤ write.pre.state.ptr :=
    (hord.past write pastWrite (hlock.trans hwrite) observed hobserved).2
  have hptr₂ : write.post.state.ptr ≤ lock.pre.state.ptr :=
    (hord.past lock pastLock hlock write hwrite.mem).2
  have hptr₃ : lock.pre.state.ptr ≤ lock.post.state.ptr := (hord.step lock hlock.mem).2
  rw [(c.state_of_read hs hobs hread).2] at hptr₁
  rw [c.state_of_write hs (hlock.trans hwrite) hstored] at hptr₂
  have hafter : ∀ p, Prog.Leads (c.body .refresh) (s.view.trace i) p →
      (∀ issuer, ⟨.discoverStart issuer, ()⟩ ∉ s.view.trace i)
        ∧ ∀ res, p = .ret res → res = .ok none := by
    intro p hleads
    rw [htrace] at hleads ⊢
    obtain ⟨mid, hmid, hrest⟩ := hleads.split
    cases hrest with
    | call hrest =>
      obtain ⟨first, now, htr, rfl⟩ := c.leads_to_lock hmid
      have hfirst : ⟨.read, state⟩ ∈ (⟨s.view.world, pastLock⟩ : ProviderView).trace i :=
        View.mem_trace.mpr ⟨observed, hobsmem, hiobs, hread⟩
      rw [htr] at hfirst ⊢
      have hsame : state = first := by simpa using hfirst
      subst hsame
      obtain ⟨hnone, hres⟩ := c.leads_rest_of_ne hrest (by
        intro current hcurrent
        obtain ⟨ev, hmem, _, hdid'⟩ := View.mem_trace.mp hcurrent
        obtain ⟨past, hev⟩ := happened_of_mem_later hmem (lock :: pastLock)
        rw [← hlater] at hev
        have hptr₄ : lock.post.state.ptr ≤ ev.pre.state.ptr :=
          (hord.past ev _ hev lock (by simp)).2
        rw [(c.state_of_read hs hev hdid').1] at hptr₄
        simp only at hptr₂
        omega)
      refine ⟨?_, hres⟩
      intro issuer hmem
      exact hnone issuer (by simpa using hmem)
  refine ⟨?_, fun res hret => (hafter _ (hs.leads_running hret)).2 res rfl⟩
  intro ev hmem hiev hstart
  obtain ⟨issuer, hstart⟩ := hstart
  obtain ⟨p, hleads⟩ := hs.leads h.submitted
  exact (hafter p hleads).1 issuer (View.mem_trace.mpr ⟨ev, hmem, hiev, hstart⟩)

/-! ### One fetch per call

Which answers have changed the snapshot is told by the call that was given them, as each call has
one at most. -/

def IsAnswer : ProviderOp → Prop
  | .discoverAwait _ => True
  | _ => False

/-- A refresh has one answer at most. -/
theorem atMost_answers_refresh : Prog.AtMost IsAnswer 1 c.refresh := by
  have hleave : ∀ n res, Prog.AtMost IsAnswer n (leave res) :=
    fun n res => .skip (by simp [IsAnswer]) fun _ => .ret n _
  refine .skip (by simp [IsAnswer]) fun observed => .skip (by simp [IsAnswer]) fun now => ?_
  by_cases hfresh : c.Fresh observed.value now
  · rw [if_pos hfresh]
    exact .ret 1 _
  · rw [if_neg hfresh]
    refine .skip (by simp [IsAnswer]) fun _ => .skip (by simp [IsAnswer]) fun current => ?_
    by_cases hptr : observed.ptr ≠ current.ptr
    · rw [if_pos hptr]
      exact hleave 1 _
    · rw [if_neg hptr]
      refine .skip (by simp [IsAnswer]) fun now' => ?_
      by_cases hfresh' : c.Fresh current.value now'
      · rw [if_pos hfresh']
        exact hleave 1 _
      · rw [if_neg hfresh']
        refine .skip (by simp [IsAnswer]) fun _ => .spend fun answer => ?_
        cases answer with
        | error e => exact hleave 0 _
        | ok metadata =>
          exact .skip (by simp [IsAnswer]) fun _ => .skip (by simp [IsAnswer]) fun _ => hleave 0 _

/-- **A call fetches at most once**, a verification with its retry included. -/
theorem atMost_answers (call : ProviderCall) : Prog.AtMost IsAnswer 1 (c.body call) := by
  have hattempt : ∀ n idToken nonce k, (∀ a, Prog.AtMost IsAnswer n (k a)) →
      Prog.AtMost IsAnswer n (c.attempt idToken nonce k) :=
    fun n _ _ _ hk => .skip (by simp [IsAnswer]) fun _ => .skip (by simp [IsAnswer]) hk
  rw [body_eq]
  cases call with
  | refresh => exact c.atMost_answers_refresh.bind (m := 0) fun _ => .ret 0 _
  | verifyIdToken token nonce =>
    simp only
    cases c.lib.parseIdToken token with
    | error e => exact .ret 1 _
    | ok idToken =>
      refine hattempt 1 _ _ _ fun first => ?_
      cases first with
      | ok claims => exact .ret 1 _
      | error error =>
        by_cases hstale : (!isPossiblyStaleKeys error) = true
        · simp only [if_pos hstale]
          exact .ret 1 _
        · simp only [if_neg hstale]
          refine c.atMost_answers_refresh.bind (m := 0) fun result => ?_
          cases result with
          | error e => exact .ret 0 _
          | ok u => exact hattempt 0 _ _ _ fun second => .ret 0 _

/-- A task none of whose fetches was answered with metadata changes nothing. -/
theorem state_of_unanswered {s : ProviderRun} (hs : Reachable c.machine s) {i : ℕ}
    (h : ∀ fetch ∈ s.view.history, fetch.task = i → ∀ issuer metadata,
      ¬ fetch.Did (.discoverAwait issuer) (.ok metadata)) :
    ∀ ev ∈ s.view.history, ev.task = i → ev.post.state = ev.pre.state := by
  intro ev hmem hi
  obtain ⟨past, hev⟩ := happened_of_mem hmem
  have hx : ProviderWorld.exec ev.task ev.pre ev.op ev.ans ev.post := hs.exec_of_happened hev
  rcases ProviderWorld.state_of_exec hx with hstate | ⟨state, hop, _⟩
  · exact hstate
  · -- it stored a snapshot, so it had fetched one
    have hdid : ev.Did (.write state) () := by
      obtain ⟨task, req, op, ans, pre, post⟩ := ev
      cases hop
      rfl
    obtain ⟨⟨fetch, hfetch, htask, issuer, metadata, hans, _⟩, _⟩ :=
      (c.inv_of_reachable hs).stored ev past hev state hdid
    exact absurd hans (h fetch (hev.past_mem hfetch) (htask.trans hi) issuer metadata)

/-! ### The whole

All that the runs promise about refreshing, together. -/

/-- **Refresh is single-flight and never goes backwards.** -/
structure SingleFlight (s : ProviderRun) : Prop where
  one_in_flight : s.view.world.inFlight.length ≤ 1
  joined : ∀ i, Overtaken s i → (∀ ev ∈ s.view.history, ev.task = i → ¬ Starts ev)
    ∧ ∀ res, s.Returned i .refresh res → res = .ok none
  /-- The snapshot is replaced only by the call that has just fetched the new one, which is no
  older than the one it replaces. -/
  replaced : ∀ s', Step c.machine s s' → s'.view.world.state = s.view.world.state
    ∨ ∃ i call state k, s.tasks i = .running call (.call (.write state) k)
      ∧ s'.view.world.state = ⟨s.view.world.state.ptr + 1, state⟩
      ∧ FetchedBy c s.view.history i state
      ∧ s.view.world.state.value.fetchedAt ≤ state.fetchedAt
  /-- A call without a successful fetch, failed, given up or still waiting, has changed nothing. -/
  unanswered : ∀ i, (∀ fetch ∈ s.view.history, fetch.task = i → ∀ issuer metadata,
      ¬ fetch.Did (.discoverAwait issuer) (.ok metadata)) →
    ∀ ev ∈ s.view.history, ev.task = i → ev.post.state = ev.pre.state
  failed : ∀ fetch ∈ s.view.history, ∀ issuer e, fetch.Did (.discoverAwait issuer) (.error e) →
    ∀ ev ∈ s.view.history, ev.task = fetch.task → ev.post.state = ev.pre.state

variable {c} in
/-- **At most one fetch is in flight**: whoever is in flight holds the lock. -/
theorem Inv.one_in_flight {gap : ℕ} {v : ProviderView} (hinv : c.Inv gap v) :
    v.world.inFlight.length ≤ 1 := by
  have hone : ∀ i ∈ v.world.inFlight, ∀ j ∈ v.world.inFlight, i = j := by
    intro i hi j hj
    exact Option.some.inj ((hinv.flight i hi).1.symm.trans (hinv.flight j hj).1)
  have hnodup := hinv.nodup
  cases hflight : v.world.inFlight with
  | nil => simp
  | cons i rest =>
    rw [hflight] at hone hnodup
    cases rest with
    | nil => simp
    | cons j rest =>
      have hij : i = j := hone i (by simp) j (by simp)
      subst hij
      exact absurd List.mem_cons_self (List.nodup_cons.mp hnodup).1

/-- **Refresh is single-flight and never goes backwards**, in every run, with calls dropped
anywhere. -/
theorem refresh_single_flight {s : ProviderRun} (hs : Reachable c.machine s) :
    c.SingleFlight s := by
  have hinv := c.inv_of_reachable hs
  refine ⟨hinv.one_in_flight, fun i h => h.joins c hs, ?_, fun i h => c.state_of_unanswered hs h, ?_⟩
  · intro s' hstep
    have hinv' := c.inv_of_reachable (hs.step hstep)
    cases hstep with
    | spawn i call hi => exact .inl rfl
    | abandon i hi w hx =>
      left
      rw [State.move_view, View.withWorld_world, hx.2]
    | env w hx =>
      left
      rw [View.withWorld_world, hx.2]
    | @act i call op k hi a w hx =>
      rcases ProviderWorld.state_of_exec hx with hstate | ⟨state, rfl, hstate⟩
      · exact .inl hstate
      · obtain ⟨hfetched, hle⟩ := hinv'.stored _ s.view.history ⟨[], rfl⟩ state rfl
        exact .inr ⟨i, call, state, k, hi, hstate, hfetched, hle⟩
  · intro fetch hfetch issuer e hans
    refine c.state_of_unanswered hs ?_
    intro fetch' hfetch' htask issuer' metadata hans'
    have hsub : s.Submitted fetch.task fetch.req :=
      ((c.lingering_zero hs).holds (valid (Nat.zero_le _))).submitted fetch hfetch
    obtain ⟨p, hleads⟩ := hs.leads hsub
    have hmem : ⟨.discoverAwait issuer, .error e⟩ ∈ s.view.trace fetch.task :=
      View.mem_trace.mpr ⟨fetch, hfetch, rfl, hans⟩
    have hmem' : ⟨.discoverAwait issuer', .ok metadata⟩ ∈ s.view.trace fetch.task :=
      View.mem_trace.mpr ⟨fetch', hfetch', htask, hans'⟩
    cases (c.atMost_answers fetch.req).unique hleads hmem hmem' trivial trivial

/-- **A fetch and a call that is overtaken by it**: call 1 observes the snapshot and waits for the
lock, call 0 fetches another snapshot meanwhile, and both return `Ok`. -/
theorem refreshed_single_flight : ∃ s : ProviderRun, s.Returned 0 .refresh (.ok none)
    ∧ s.Returned 1 .refresh (.ok none) ∧ (∃ ev ∈ s.view.history, ev.task = 0 ∧ Starts ev)
    ∧ Overtaken s 1 ∧ bareProvider.SingleFlight s := by
  let before : ProviderWorld := ⟨bareSnapshot, none, [], second 100⟩
  let fresh : Arc ProviderState := ⟨1, bareProvider.stateOf bareMetadata (second 100)⟩
  let after : ProviderWorld := ⟨fresh, none, [], second 100⟩
  have h₀ : Reachable bareProvider.machine (⟨⟨before, []⟩, fun _ => .idle⟩ : ProviderRun) :=
    .init _ ⟨by decide, rfl, rfl⟩
  -- call 1, as far as the lock
  let observed : ProviderEvent := ⟨1, .refresh, .read, bareSnapshot, before, before⟩
  let past : List ProviderEvent := [⟨1, .refresh, .instantNow, second 100, before, before⟩, observed]
  obtain ⟨k, hwaits⟩ : ∃ k, Alone bareProvider.machine 1 .refresh ⟨before, []⟩
      (bareProvider.body .refresh) ⟨before, past⟩ (.call .lock k) :=
    ⟨_, .act bareSnapshot _ ⟨rfl, rfl⟩ (.act (second 100) _ ⟨rfl, rfl⟩ (.refl _ _))⟩
  obtain ⟨s₁, hs₁, hview₁, htask₁, hothers₁⟩ := h₀.submit rfl hwaits
  -- call 0, from start to end
  obtain ⟨v, hfetches, hworld, start, hstart, hstarts, write, pastWrite, hwrite, hstored, hpast⟩ :
      ∃ v, Alone bareProvider.machine 0 .refresh s₁.view (bareProvider.body .refresh) v
          (.ret (.ok none))
        ∧ v.world = after ∧ ∃ start ∈ v.history, (start.task = 0 ∧ Starts start)
        ∧ ∃ write pastWrite, Happened v.history write pastWrite
          ∧ (∃ state, write.Did (.write state) ()) ∧ ∀ ev ∈ past, ev ∈ pastWrite := by
    rw [hview₁]
    refine ⟨_, .act bareSnapshot _ ⟨rfl, rfl⟩ (.act (second 100) _ ⟨rfl, rfl⟩ (.act () _ ⟨rfl, rfl⟩
      (.act bareSnapshot _ ⟨rfl, rfl⟩ (.act (second 100) _ ⟨rfl, rfl⟩ (.act () _ rfl
        (.act (.ok bareMetadata) _ rfl (.act (second 100) _ ⟨rfl, rfl⟩ (.act () _ rfl
          (.act () _ rfl (.refl _ _)))))))))), rfl, ?_⟩
    -- the fifth operation from the end is the request, and the second one is the store
    exact ⟨_, .tail _ (.tail _ (.tail _ (.tail _ (.head _)))), ⟨rfl, _, rfl⟩, _, _, ⟨[_], rfl⟩,
      ⟨_, rfl⟩, fun ev hev => List.mem_append_right [_, _, _, _, _, _, _, _] hev⟩
  obtain ⟨s₂, hs₂, hview₂, htask₂, hothers₂⟩ := hs₁.submit (hothers₁ 0 (by decide)) hfetches
  -- call 1 gets the lock, and finds another snapshot under it
  have htask : s₂.tasks 1 = .running .refresh (.call .lock k) := (hothers₂ 1 (by decide)).trans htask₁
  obtain ⟨v', hjoins, lock, hlock, hi, hdid⟩ :
      ∃ v', Alone bareProvider.machine 1 .refresh v (.call .lock k) v' (.ret (.ok none))
        ∧ ∃ lock, Happened v'.history lock v.history ∧ lock.task = 1 ∧ lock.Did .lock () := by
    obtain ⟨seen, now, htrace, hk⟩ := bareProvider.leads_to_lock (hs₁.leads_running htask₁)
    have hseen : bareSnapshot = seen := by
      rw [hview₁] at htrace
      cases htrace
      rfl
    rw [hk, ← hseen]
    obtain ⟨world, history⟩ := v
    subst hworld
    exact ⟨_, .act () _ ⟨rfl, rfl⟩ (.act fresh _ ⟨rfl, rfl⟩ (.act () _ rfl (.refl _ _))), _,
      ⟨[_, _], rfl⟩, rfl, rfl⟩
  obtain ⟨s₃, hs₃, hview₃, htask₃, hothers₃⟩ := hs₂.alone hjoins hview₂ htask
  refine ⟨s₃, (hothers₃ 0 (by decide)).trans htask₂, htask₃, ?_, ?_,
    bareProvider.refresh_single_flight hs₃⟩
  · exact ⟨start, hview₃ ▸ hlock.past_mem hstart, hstarts⟩
  · exact ⟨.inl ⟨_, htask₃⟩, lock, v.history, write, pastWrite, observed, hview₃ ▸ hlock, hi, hdid,
      hwrite, hstored, hpast observed (by simp [past]), rfl, _, rfl⟩

end ProviderService

end AuthnKit
