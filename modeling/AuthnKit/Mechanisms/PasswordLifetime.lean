import AuthnKit.Mechanisms.BasicRuns
import AuthnKit.Mechanisms.CacheLifetime

/-!
# AuthnKit — how long a password-grant principal is served

The ID token of a password grant ends at its `exp`. The entry it is cached under ends after the
`expires_in` of the token response, or after the fallback when there is none, less the margin;
nothing compares the two.

* **`never_served_past_token`** — the `exp` holds in every run whose writes are `WithinToken`.
* **`served_past_token`** — five minutes of `expires_in` on a token that lasts ten seconds.
-/

namespace AuthnKit

open Interleave ApiTokenService

variable {U S : Type} [Principal U] [AuthScope S]

namespace BasicService

variable (c : BasicService)

/-! ## A write comes last

The entry is stored at the end of a request, so whatever stands behind it lies before it. This is
read off the program, once for each of its parts. -/

def IsWrite : MechOp U → Prop
  | .cacheInsert _ _ _ => True
  | _ => False

/-- The claims converted and stored: the write, and then the result. -/
theorem last_store (k : CacheKey) (what : String) (claims : IdentityClaims)
    (expiresIn : Option Duration) : Prog.Last IsWrite (store (U := U) k what claims expiresIn) := by
  unfold store
  cases (principalFrom what claims : Except AuthError U) with
  | error e => exact .ret _
  | ok user => exact .call (fun _ _ => ⟨_, rfl⟩) fun _ => .ret _

/-- A request returns right after its write, whichever way it went. -/
theorem last_body (r : AuthContext S) : Prog.Last IsWrite (c.body r : MechProg U _) := by
  have hredeem : ∀ k kind id response,
      Prog.Last IsWrite (redeem (U := U) k kind id response) := by
    intro k kind id response
    unfold redeem
    cases kind with
    | clientCredentials => exact last_store _ _ _ _
    | password =>
      cases response.idToken with
      | none => exact .ret _
      | some idToken =>
        refine .call (fun h => h.elim) fun answer => ?_
        cases answer with
        | error e => exact .ret _
        | ok claims => exact last_store _ _ _ _
  rw [body_eq]
  cases r.credential with
  | basic id secret =>
    simp only
    cases c.selectGrant r.request with
    | error e => exact .ret _
    | ok kind =>
      refine .call (fun h => h.elim) fun hit => ?_
      cases hit with
      | some user => exact .ret _
      | none =>
        refine .call (fun h => h.elim) fun state => ?_
        cases c.tokenRequest kind id secret state with
        | error e => exact .ret _
        | ok request =>
          refine .call (fun h => h.elim) fun answer => ?_
          cases answer with
          | error e => exact .ret _
          | ok response => exact hredeem _ _ _ _
  | _ => exact .ret _

/-- **What a task did besides its write it did before**, as nothing follows the write in any
behaviour of its program. -/
theorem did_before_write {s : ServiceState U S} (hs : Reachable c.machine s)
    {write : CacheEvent (AuthContext S) U} {before : List (CacheEvent (AuthContext S) U)}
    (hw : Happened s.view.history write before) {k : CacheKey} {user : U}
    {expiresIn : Option Duration} (hwrote : write.Did (.cacheInsert k user expiresIn) ())
    {ev : CacheEvent (AuthContext S) U} (hev : ev ∈ s.view.history) (htask : ev.task = write.task)
    (hother : ¬ IsWrite ev.op) :
    ∃ ev' ∈ before, ev'.task = write.task ∧ ev'.Did ev.op ev.ans := by
  have hholds : c.spec.contract.Holds s := hs.holds c.spec_valid
  have hsub : s.Submitted write.task ev.req := by
    rw [← htask]
    exact hholds.submitted ev hev
  obtain ⟨p, hleads⟩ := hs.leads hsub
  obtain ⟨later, -, htrace⟩ := View.trace_split hw rfl
  rw [htrace] at hleads
  have hwrite : IsWrite write.op := by
    rw [show write.op = .cacheInsert k user expiresIn from congrArg Sigma.fst hwrote]
    trivial
  have hnone := (c.last_body ev.req).leads hleads hwrite
  have hmem : ⟨ev.op, ev.ans⟩ ∈ s.view.trace write.task := View.mem_trace.mpr ⟨ev, hev, htask, rfl⟩
  rw [htrace, hnone] at hmem
  rcases List.mem_append.mp hmem with hbefore | hwritten
  · exact View.mem_trace.mp hbefore
  · have hsame : ev.op = write.op := congrArg Sigma.fst (List.mem_singleton.mp hwritten)
    rw [hsame] at hother
    exact absurd hwrite hother

/-! ## The expiry of the ID token

The entry lasts as long as the token response says, the token as long as it says itself. The two are
compared in the runs in which both clocks move forward together. -/

/-- The runs in which the wall clock and the monotonic clock move together. -/
def inStepMachine : Machine (AuthContext S) (MechOp U) MechOp.Answer (CacheWorld U)
    (Except AuthError (Verdict U)) :=
  c.machine.restrict (fun _ v _ _ w => InStep v.world w) (fun _ v _ w => InStep v.world w) InStep

/-- No hit at or after the expiry of an ID token is answered from an entry that was stored on the
verification of that token: by the stamp, by the task that wrote the entry. -/
def NeverPastToken (s : ServiceState U S) : Prop :=
  ∀ hit past, Happened s.view.history hit past → ∀ k user, hit.Did (.cacheGet k) (some user) →
    ∀ e, hit.pre.cache.entries.lookup k = some e →
    ∀ verification ∈ past, verification.task = e.value.writer →
    ∀ token claims, verification.Did (.verifyIdToken token .skip) (.ok claims) →
    ∀ expiry, claims.expiresAt = some expiry → hit.pre.wall.nanos < expiry.nanos

/-- The lifetime of an entry that is asked of the cache, in nanoseconds. -/
def requested (expiresIn : Option Duration) : ℕ :=
  (expiresIn.getD c.cacheConfig.fallbackTtl).nanos

/-- **When a write respects the token**: nothing is stored, or the lifetime of the entry, less the
margin, ends by the token's expiry. -/
def WithinToken (i : ℕ) (v : CacheView (AuthContext S) U) (op : MechOp U) (_ : op.Answer)
    (w : CacheWorld U) : Prop :=
  ∀ k user expiresIn, op = .cacheInsert k user expiresIn →
    ∀ verification ∈ v.history, verification.task = i →
    ∀ token claims, verification.Did (.verifyIdToken token .skip) (.ok claims) →
    ∀ expiry, claims.expiresAt = some expiry →
      (c.cacheConfig.maxEntries = 0 ∨ c.requested expiresIn ≤ c.cacheConfig.refreshMargin.nanos)
      ∨ w.wall.nanos + (c.requested expiresIn - c.cacheConfig.refreshMargin.nanos : ℕ) ≤ expiry.nanos

/-- The runs in which the clocks move together and writes respect the token. -/
def timelyMachine : Machine (AuthContext S) (MechOp U) MechOp.Answer (CacheWorld U)
    (Except AuthError (Verdict U)) :=
  c.machine.restrict (fun i v op a w => InStep v.world w ∧ c.WithinToken i v op a w)
    (fun _ v _ w => InStep v.world w) InStep

/-- In these runs every step moves both clocks forward, by the same time. -/
theorem timelyMachine_advances : (c.timelyMachine (U := U) (S := S)).Advances InStep where
  refl _ := ⟨Nat.le_refl _, by omega⟩
  trans _ _ _ h₁ h₂ := ⟨Nat.le_trans h₁.1 h₂.1, by have := h₁.2; have := h₂.2; omega⟩
  exec _ _ _ _ _ h := h.2.1
  abandon _ _ _ _ h := h.2
  env _ _ h := h.2

/-- **A principal is not served past the token it was cached from** in any run whose writes respect
it: from the verification to a hit passes less time than to the expiry. -/
theorem never_served_past_token {s : ServiceState U S} (hs : Reachable c.timelyMachine s) :
    NeverPastToken s := by
  have hm : Reachable c.machine s := hs.of_restrict
  have hholds : c.spec.contract.Holds s := hm.holds c.spec_valid
  have hord : s.view.Ordered InStep := hs.ordered c.timelyMachine_advances
  intro hit past hhit k user hdid e he verification hver htask token claims hans expiry hexp
  -- the write the entry comes from
  obtain ⟨e', he', ⟨write, before, expiresIn, hw, -⟩, hunexpired, -⟩ :=
    hholds.inv.served hit past hhit k user hdid
  obtain rfl := Option.some.inj (he'.symm.trans he)
  have hhappened : Happened s.view.history write before := hhit.trans hw.happened
  -- its task had verified the token by then
  have hother : ¬ IsWrite verification.op := by
    rw [show verification.op = .verifyIdToken token .skip from congrArg Sigma.fst hans]
    exact id
  obtain ⟨verification', hbefore, htask', hans'⟩ := c.did_before_write hm hhappened hw.wrote
    (hhit.past_mem hver) (htask.trans hw.task.symm) hother
  have hdid' : verification'.Did (.verifyIdToken token .skip) (.ok claims) := hans'.trans hans
  have hwithin := (hs.restrict_ok hhappened).2
  have hop : write.op = .cacheInsert k e'.value.user expiresIn := congrArg Sigma.fst hw.wrote
  have hend := hwithin k _ expiresIn hop verification' hbefore htask' token claims hdid' expiry hexp
  -- the deadline of the entry, on the wall clock
  have htime := (hord.past hit past hhit write hw.happened.mem).2
  have hne := hw.ttl_ne
  have httl : (CredentialCache.ttl c.cacheConfig expiresIn).nanos
      = c.requested expiresIn - c.cacheConfig.refreshMargin.nanos := rfl
  have hconfig : (c.spec (U := U) (S := S)).config = c.cacheConfig := rfl
  rw [Instant.lt_def, hw.deadline, hconfig, httl] at hunexpired
  rw [hconfig, httl] at hne
  rcases hend with (hzero | hzero) | hend
  · exact absurd hzero hw.maxEntries_ne
  · omega
  · omega

end BasicService

/-! ## A password exchanged twice

The password `abc` is exchanged for a token response with five minutes of `expires_in`. -/

namespace BasicService

/-- The default cache, with the password grant. -/
def aliceService : BasicService where
  blake3 := blake3OfAbc
  config := { issuerUrl := "https://issuer", clientId := "app", redirectUrl := "https://app/cb" }
  lib :=
    { parseIdToken := fun text => .ok ⟨text⟩
      nonceEquals := fun _ _ => .ok ()
      missingTokenUrl := "No token endpoint URL specified"
      authorizeUrl := fun _ => "https://issuer/authorize" }
  allowPasswordGrant := true
  cacheConfig := {}

def aliceRequest : AuthContext NoScope where
  request := (({} : AuthRequestBuilder).header "x-grant-type" "password").build
  credential := .basic "alice" "abc"
  scope := .noScope

def aliceState : ProviderState where
  metadata := ⟨"https://issuer/authorize", some "https://issuer/token", none, []⟩
  client := buildClient ⟨"https://issuer/authorize", some "https://issuer/token", none, []⟩ "app" none
    "https://app/cb"
  fetchedAt := ⟨0, Instant.zero_lt_max⟩

def aliceGrant : TokenRequest where
  client := aliceState.client
  grant := .password "alice" "abc"
  scopes := ["openid", "email", "profile"]

def aliceResponse : TokenResponse := ⟨some (.fromSecs 300), some ⟨"a.b.c"⟩⟩

def aliceClaims (expiry : SystemTime) : IdentityClaims :=
  { subject := some "alice", email := some "alice@example.com", expiresAt := some expiry }

def alice : User := ⟨"alice@example.com", "alice@example.com"⟩

def aliceKey : CacheKey := aliceService.cacheKey none .password "alice" "abc"

theorem body_alice : (aliceService.body aliceRequest : MechProg User _)
    = aliceService.grant none .password "alice" "abc" := by
  have hselected : aliceService.selectGrant aliceRequest.request = .ok .password := by decide +kernel
  rw [body_eq, show aliceRequest.credential = .basic "alice" "abc" from rfl]
  simp only [hselected]
  rfl

/-- A step of the run: it takes no time, and before the write nothing has, and only this token was
verified. -/
structure Calm (expiry : SystemTime) (v : CacheView (AuthContext NoScope) User) (op : MechOp User)
    (w : CacheWorld User) : Prop where
  now : w.now = v.world.now
  wall : w.wall = v.world.wall
  write : ∀ k user expiresIn, op = .cacheInsert k user expiresIn →
    v.world.wall = abcStart.wall ∧ expiresIn = some (.fromSecs 300)
      ∧ ∀ ev ∈ v.history, ∀ token claims, ev.Did (.verifyIdToken token .skip) (.ok claims) →
        claims = aliceClaims expiry

section Revisit

variable {ok : ℕ → CacheView (AuthContext NoScope) User → (op : MechOp User) → op.Answer →
  CacheWorld User → Prop}

/-- The runs whose operations meet `ok`, with the clocks in step. -/
def aliceRuns (ok : ℕ → CacheView (AuthContext NoScope) User → (op : MechOp User) → op.Answer →
    CacheWorld User → Prop) :
    Machine (AuthContext NoScope) (MechOp User) MechOp.Answer (CacheWorld User)
      (Except AuthError (Verdict User)) :=
  aliceService.machine.restrict ok (fun _ v _ w => InStep v.world w) InStep

/-- What is no write is calm if it takes no time. -/
theorem calm_of_not_write {expiry : SystemTime} {v : CacheView (AuthContext NoScope) User}
    {op : MechOp User} {w : CacheWorld User} (hnow : w.now = v.world.now)
    (hwall : w.wall = v.world.wall) (hop : ¬ IsWrite op) : Calm expiry v op w := by
  refine ⟨hnow, hwall, ?_⟩
  intro k user expiresIn heq
  rw [heq] at hop
  exact absurd trivial hop

/-- The password is exchanged, and the principal stored for four and a half minutes, in any of these
runs that allows calm steps. -/
theorem exists_exchanged (expiry : SystemTime)
    (hok : ∀ i v op a w, Calm expiry v op w → ok i v op a w) :
    ∃ s : ServiceState User NoScope, Reachable (aliceRuns ok) s ∧ s.tasks 1 = .idle
      ∧ s.view.world.now = abcStart.now ∧ s.view.world.wall = abcStart.wall
      ∧ (∃ e, s.view.world.cache.entries.lookup aliceKey = some e ∧ e.value = ⟨alice, 0⟩
        ∧ e.expiresAt = abcAfter 270)
      ∧ ∃ ev ∈ s.view.history, ev.task = 0
        ∧ ev.Did (.verifyIdToken "a.b.c" .skip) (.ok (aliceClaims expiry)) := by
  -- the lookup misses the empty cache and moves only its logical clock
  set w₁ : CacheWorld User :=
    { abcStart with cache := (abcStart.cache.get abcStart.now aliceKey).2 } with hw₁
  have hmiss : CacheWorld.exec 0 abcStart (.cacheGet aliceKey) none w₁ := ⟨rfl, rfl⟩
  have hcfg : w₁.cache.config = {} := CacheWorld.config_of_exec hmiss
  have hfits : w₁.now.checkedAdd (CredentialCache.ttl w₁.cache.config (some (.fromSecs 300)))
      = some (abcAfter 270) := by
    rw [hcfg]
    decide
  obtain ⟨w₂, hins, hnow₂, hwall₂, e, he, hvalue, hexp⟩ := CacheWorld.exists_exec_insert 0 w₁ aliceKey
    alice (by rw [hcfg]; decide) (by rw [hcfg]; decide) hfits
  -- what the request does before its write
  let past : List (CacheEvent (AuthContext NoScope) User) :=
    [⟨0, aliceRequest, .verifyIdToken "a.b.c" .skip, .ok (aliceClaims expiry), w₁, w₁⟩,
      ⟨0, aliceRequest, .requestAsync aliceGrant, .ok aliceResponse, w₁, w₁⟩,
      ⟨0, aliceRequest, .snapshot, aliceState, w₁, w₁⟩,
      ⟨0, aliceRequest, .cacheGet aliceKey, none, abcStart, w₁⟩]
  have hverified : ∀ ev ∈ past, ∀ token claims, ev.Did (.verifyIdToken token .skip) (.ok claims) →
      claims = aliceClaims expiry := by
    intro ev hev token claims hdid
    simp only [past, List.mem_cons, List.not_mem_nil, or_false] at hev
    rcases hev with rfl | rfl | rfl | rfl <;> cases hdid
    rfl
  let write : CacheEvent (AuthContext NoScope) User :=
    ⟨0, aliceRequest, .cacheInsert aliceKey alice (some (.fromSecs 300)), (), w₁, w₂⟩
  have halone : Alone (aliceRuns ok) 0 aliceRequest ⟨abcStart, []⟩ (aliceService.body aliceRequest)
      ⟨w₂, write :: past⟩ (.ret (.ok (.authenticated alice))) := by
    rw [body_alice]
    refine .act none w₁ ⟨hmiss, hok _ _ _ _ _ (calm_of_not_write rfl rfl id)⟩ ?_
    refine .act aliceState w₁ ⟨rfl, hok _ _ _ _ _ (calm_of_not_write rfl rfl id)⟩ ?_
    refine .act (.ok aliceResponse) w₁ ⟨rfl, hok _ _ _ _ _ (calm_of_not_write rfl rfl id)⟩ ?_
    refine .act (.ok (aliceClaims expiry)) w₁ ⟨rfl, hok _ _ _ _ _ (calm_of_not_write rfl rfl id)⟩ ?_
    refine .act () w₂ ⟨hins, hok _ _ _ _ _ ⟨hnow₂, hwall₂, ?_⟩⟩ (.refl _ _)
    intro k user expiresIn hop
    cases hop
    exact ⟨rfl, rfl, hverified⟩
  obtain ⟨s, hs, hview, -, hframe⟩ :=
    (Reachable.init abcStart rfl : Reachable (aliceRuns ok) _).submit (i := 0) rfl halone
  refine ⟨s, hs, hframe 1 (by decide), ?_⟩
  rw [hview]
  exact ⟨hnow₂, hwall₂, ⟨e, he, hvalue, hexp⟩, _, List.mem_cons_of_mem _ List.mem_cons_self, rfl, rfl⟩

/-- **The password is answered from the cache** twenty seconds later, whatever the expiry of the
token. -/
theorem exists_revisit (expiry : SystemTime)
    (hok : ∀ i v op a w, Calm expiry v op w → ok i v op a w) :
    ∃ s hit past, Reachable (aliceRuns ok) s
      ∧ s.view.history = hit :: past ∧ hit.Did (.cacheGet aliceKey) (some alice)
      ∧ hit.pre.wall = abcWallAfter 20
      ∧ (∃ e, hit.pre.cache.entries.lookup aliceKey = some e ∧ e.value = ⟨alice, 0⟩)
      ∧ (∃ ev ∈ past, ev.task = 0
        ∧ ev.Did (.verifyIdToken "a.b.c" .skip) (.ok (aliceClaims expiry)))
      ∧ s.Returned 1 aliceRequest (.ok (.authenticated alice)) := by
  obtain ⟨s₁, hs₁, hidle, hnow, hwall, ⟨e, he, hvalue, hexp⟩, hverified⟩ := exists_exchanged expiry hok
  -- twenty seconds pass
  set w : CacheWorld User := { s₁.view.world with now := abcAfter 20, wall := abcWallAfter 20 } with hw
  have htime : CacheWorld.elapse s₁.view.world w ∧ InStep s₁.view.world w := by
    have hle : s₁.view.world.now ≤ abcAfter 20 := by
      rw [hnow]
      decide
    refine ⟨⟨hle, rfl⟩, hle, ?_⟩
    show (abcWallAfter 20).nanos - s₁.view.world.wall.nanos
      = ((abcAfter 20).nanos : ℤ) - s₁.view.world.now.nanos
    rw [hnow, hwall]
    decide
  have hs₂ : Reachable (aliceRuns ok) ⟨s₁.view.withWorld w, s₁.tasks⟩ := hs₁.step (.env w htime)
  -- the password is presented again
  have hlater : abcAfter 20 < e.expiresAt := by
    rw [hexp]
    decide
  have hget : (w.cache.get w.now aliceKey).1 = some ⟨alice, 0⟩ :=
    CredentialCache.get_eq_some_iff.mpr ⟨e, he, hlater, hvalue⟩
  have hhit : CacheWorld.exec 1 w (.cacheGet aliceKey) (some alice)
      { w with cache := (w.cache.get w.now aliceKey).2 } := by
    refine ⟨?_, rfl⟩
    rw [hget]
    rfl
  let hit : CacheEvent (AuthContext NoScope) User := ⟨1, aliceRequest, .cacheGet aliceKey, some alice,
    w, { w with cache := (w.cache.get w.now aliceKey).2 }⟩
  have halone : Alone (aliceRuns ok) 1 aliceRequest (s₁.view.withWorld w)
      (aliceService.body aliceRequest) ((s₁.view.withWorld w).after hit)
      (.ret (.ok (.authenticated alice))) := by
    rw [body_alice]
    exact .act (some alice) _ ⟨hhit, hok _ _ _ _ _ (calm_of_not_write rfl rfl id)⟩ (.refl _ _)
  obtain ⟨s, hs, hview, hrun, -⟩ := hs₂.submit hidle halone
  refine ⟨s, hit, s₁.view.history, hs, ?_, rfl, rfl, ⟨e, he, hvalue⟩, hverified, hrun⟩
  rw [hview, View.after_history, View.withWorld_history]

end Revisit

/-- **A principal is served past its token**: the token lasts ten seconds, the entry four and a half
minutes. -/
theorem served_past_token :
    ∃ s : ServiceState User NoScope, Reachable aliceService.inStepMachine s ∧ ¬ NeverPastToken s := by
  have hok : ∀ (i : ℕ) v (op : MechOp User) (a : op.Answer) w, Calm (abcWallAfter 10) v op w →
      InStep v.world w := by
    intro i v op a w h
    exact ⟨Nat.le_of_eq (congrArg Instant.nanos h.now.symm), by rw [h.now, h.wall]; omega⟩
  obtain ⟨s, hit, past, hs, hhist, hserved, hwall, ⟨e, he, hstamp⟩, ⟨ev, hmem, htask, hans⟩, -⟩ :=
    exists_revisit (abcWallAfter 10) hok
  refine ⟨s, hs, ?_⟩
  intro hnever
  have hlt := hnever hit past ⟨[], hhist⟩ _ _ hserved e he ev hmem (by rw [hstamp]; exact htask) _ _
    hans (abcWallAfter 10) rfl
  rw [hwall] at hlt
  exact absurd hlt (by decide)

/-- A token that lasts as long as the response says is served only while it lasts. -/
theorem five_minutes_kept :
    ∃ s : ServiceState User NoScope, s.Returned 1 aliceRequest (.ok (.authenticated alice))
      ∧ NeverPastToken s := by
  have hok : ∀ i v op a w, Calm (abcWallAfter 300) v op w →
      InStep v.world w ∧ aliceService.WithinToken i v op a w := by
    intro i v op a w h
    refine ⟨⟨Nat.le_of_eq (congrArg Instant.nanos h.now.symm), by rw [h.now, h.wall]; omega⟩, ?_⟩
    intro k user expiresIn hop verification hmem _ token claims hans expiry hexp
    obtain ⟨hstart, hlife, hverified⟩ := h.write k user expiresIn hop
    rw [hverified verification hmem token claims hans] at hexp
    rw [← Option.some.inj hexp, h.wall, hstart, hlife]
    right
    decide
  obtain ⟨s, -, -, hs, -, -, -, -, -, hret⟩ := exists_revisit (abcWallAfter 300) hok
  exact ⟨s, hret, never_served_past_token _ hs⟩

end BasicService

end AuthnKit
