import AuthnKit.Mechanisms.ApiTokenRuns

/-!
# AuthnKit — a key presented twice

The shortest run in which the cache matters: a key is validated and stored, time passes, and the
same key is presented again.

* **`exists_revisit`** — until the deadline of its entry the second request is answered from the
  cache. The deadline is all that ends it: the validator is not asked again.
-/

namespace AuthnKit

open Interleave

variable {U S : Type} [Principal U] [AuthScope S]

namespace ApiTokenService

variable (c : ApiTokenService)

/-- Everything so far happened at one standing pair of clocks, and validations answered
`claims`. -/
def AllAt (now : Instant) (wall : SystemTime) (claims : IdentityClaims)
    (past : List (CacheEvent (AuthContext S) U)) : Prop :=
  ∀ ev ∈ past, ev.post.now = now ∧ ev.post.wall = wall
    ∧ (∀ key scope claims', ev.Did (.validate key scope) (.ok claims') → claims' = claims)
    ∧ ∀ reading, ev.Did .systemNow reading → reading = wall

omit [Principal U] [AuthScope S] in
/-- One more event at the standing clocks, with the answer there is. -/
theorem AllAt.cons {now : Instant} {wall : SystemTime} {claims : IdentityClaims}
    {past : List (CacheEvent (AuthContext S) U)} (h : AllAt now wall claims past)
    (ev : CacheEvent (AuthContext S) U) (hnow : ev.post.now = now) (hwall : ev.post.wall = wall)
    (hval : ∀ key scope claims', ev.Did (.validate key scope) (.ok claims') → claims' = claims)
    (hread : ∀ reading, ev.Did .systemNow reading → reading = wall) :
    AllAt now wall claims (ev :: past) := by
  intro ev' hev'
  rcases List.mem_cons.mp hev' with rfl | hold
  · exact ⟨hnow, hwall, hval, hread⟩
  · exact h ev' hold

/-- A key whose validation answers `claims` in the world `w₀`, with an empty cache, and whose
principal is then cached until `deadline`. -/
structure CachedUntil (r : AuthContext S) (key : String) (claims : IdentityClaims) (user : U)
    (w₀ : CacheWorld U) (ttl : Option Duration) (deadline : Instant) : Prop where
  key_eq : c.keyOf r.credential = some key
  unmatched : c.matched (AuthScope.cacheDiscriminator r.scope) key = none
  converted : Principal.tryFrom claims = .ok user
  empty : w₀.cache = .new c.cacheConfig
  ttl_eq : ttl = claims.expiresAt.bind fun expiresAt => c.lifetime expiresAt w₀.wall
  ttl_ne : (CredentialCache.ttl c.cacheConfig ttl).nanos ≠ 0
  maxEntries_ne : c.cacheConfig.maxEntries ≠ 0
  fits : w₀.now.checkedAdd (CredentialCache.ttl c.cacheConfig ttl) = some deadline

/-- The request is for a key that matches no static token. -/
theorem CachedUntil.body_eq {r : AuthContext S} {key : String} {claims : IdentityClaims} {user : U}
    {w₀ : CacheWorld U} {ttl : Option Duration} {deadline : Instant}
    (h : c.CachedUntil r key claims user w₀ ttl deadline) :
    (c.body r : MechProg U _) = c.remote (AuthScope.cacheDiscriminator r.scope) key := by
  rw [ApiTokenService.body_eq, h.key_eq]
  simp only
  rw [h.unmatched]

/-- The cache answers `r` with the entry of the first task, which `claims` of this key and scope
stand behind. -/
structure ServedAgain (r : AuthContext S) (key : String) (claims : IdentityClaims) (user : U)
    (hit : CacheEvent (AuthContext S) U) (past : List (CacheEvent (AuthContext S) U)) : Prop where
  req : hit.req = r
  answer : hit.Did (.cacheGet (c.cacheKey (AuthScope.cacheDiscriminator r.scope) key)) (some user)
  entry : ∃ e, hit.pre.cache.entries.lookup
      (c.cacheKey (AuthScope.cacheDiscriminator r.scope) key) = some e ∧ e.value = ⟨user, 0⟩
  validation : ∃ ev ∈ past, ev.task = 0
    ∧ ev.Did (.validate key (AuthScope.cacheDiscriminator r.scope)) (.ok claims)

/-- Nothing has moved the clocks of `w₀`, and every validation answered `claims`. -/
structure Standing (claims : IdentityClaims) (w₀ : CacheWorld U)
    (v : CacheView (AuthContext S) U) : Prop where
  now : v.world.now = w₀.now
  wall : v.world.wall = w₀.wall
  all : AllAt w₀.now w₀.wall claims v.history

/-- An operation of the run to be shown: it takes no time, and the write comes before any has
passed. -/
structure Benign (claims : IdentityClaims) (w₀ : CacheWorld U) (v : CacheView (AuthContext S) U)
    (op : MechOp U) (w : CacheWorld U) : Prop where
  now : w.now = v.world.now
  wall : w.wall = v.world.wall
  all : AllAt w₀.now w₀.wall claims v.history
  write : ∀ k user expiresIn, op = .cacheInsert k user expiresIn →
    v.world.now = w₀.now ∧ v.world.wall = w₀.wall

omit [Principal U] [AuthScope S] in
/-- An operation that takes no time is benign while nothing has moved the clocks. -/
theorem Standing.benign {claims : IdentityClaims} {w₀ : CacheWorld U}
    {v : CacheView (AuthContext S) U} (h : Standing claims w₀ v) (op : MechOp U) {w : CacheWorld U}
    (hnow : w.now = v.world.now) (hwall : w.wall = v.world.wall) : Benign claims w₀ v op w :=
  ⟨hnow, hwall, h.all, fun _ _ _ _ => ⟨h.now, h.wall⟩⟩

section Revisit

variable (ok : ℕ → CacheView (AuthContext S) U → (op : MechOp U) → op.Answer → CacheWorld U → Prop)
  (drop : ℕ → CacheView (AuthContext S) U → MechOp U → CacheWorld U → Prop)
  (tick : CacheWorld U → CacheWorld U → Prop) {r : AuthContext S} {key : String}
  {claims : IdentityClaims} {user : U} {w₀ : CacheWorld U} {ttl : Option Duration}
  {deadline : Instant}

/-- From a successful validation on, the first request stores the principal until the deadline, in
any runs that allow benign steps. -/
theorem exists_validated (h : c.CachedUntil r key claims user w₀ ttl deadline)
    (hok : ∀ i v op a w, Benign claims w₀ v op w → ok i v op a w)
    {v : CacheView (AuthContext S) U} (hv : Standing claims w₀ v)
    (hcfg : v.world.cache.config = c.cacheConfig) :
    ∃ v', Alone (c.machine.restrict ok drop tick) 0 r v
        (c.validated (AuthScope.cacheDiscriminator r.scope) key claims) v'
        (.ret (.ok (.authenticated user)))
      ∧ Standing claims w₀ v' ∧ (∀ ev ∈ v.history, ev ∈ v'.history)
      ∧ ∃ e, v'.world.cache.entries.lookup
          (c.cacheKey (AuthScope.cacheDiscriminator r.scope) key) = some e
        ∧ e.value = ⟨user, 0⟩ ∧ e.expiresAt = deadline := by
  set scope := AuthScope.cacheDiscriminator r.scope with hscope
  set k := c.cacheKey scope key with hk
  have hprincipal : (principalFrom "api token principal could not be converted" claims
      : Except AuthError U) = .ok user := principalFrom_eq_ok.mpr h.converted
  obtain ⟨w₂, hins, hnow₂, hwall₂, hentry⟩ := CacheWorld.exists_exec_insert 0
    v.world k user (by rw [hcfg]; exact h.ttl_ne) (by rw [hcfg]; exact h.maxEntries_ne) (by rw [hcfg, hv.now]; exact h.fits)
  have hwrite : ∀ past : List (CacheEvent (AuthContext S) U), AllAt w₀.now w₀.wall claims past →
      AllAt w₀.now w₀.wall claims (⟨0, r, .cacheInsert k user ttl, (), v.world, w₂⟩ :: past) := by
    intro past hall
    exact hall.cons _ (hnow₂.trans hv.now) (hwall₂.trans hv.wall) (by intro _ _ _ hd; cases hd)
      (by intro _ hd; cases hd)
  have httl := h.ttl_eq
  unfold validated store
  rw [hprincipal]
  cases hexpires : claims.expiresAt with
  | none =>
    rw [hexpires] at httl
    refine ⟨v.after ⟨0, r, .cacheInsert k user ttl, (), v.world, w₂⟩, ?_,
      ⟨hnow₂.trans hv.now, hwall₂.trans hv.wall, hwrite _ hv.all⟩,
      fun ev hev => List.mem_cons_of_mem _ hev, hentry⟩
    rw [show (none : Option Duration) = ttl from httl.symm]
    exact .act () w₂ ⟨hins, hok _ _ _ _ _ (hv.benign _ hnow₂ hwall₂)⟩ (.refl _ _)
  | some expiresAt =>
    rw [hexpires] at httl
    have hread : Standing claims w₀
        (v.after ⟨0, r, .systemNow, v.world.wall, v.world, v.world⟩) :=
      ⟨hv.now, hv.wall, hv.all.cons _ hv.now hv.wall (by intro _ _ _ hd; cases hd)
        (by intro _ hd; cases hd; exact hv.wall)⟩
    refine ⟨(v.after ⟨0, r, .systemNow, v.world.wall, v.world, v.world⟩).after
        ⟨0, r, .cacheInsert k user ttl, (), v.world, w₂⟩, ?_,
      ⟨hnow₂.trans hv.now, hwall₂.trans hv.wall, hwrite _ hread.all⟩,
      fun ev hev => List.mem_cons_of_mem _ (List.mem_cons_of_mem _ hev), hentry⟩
    refine .act v.world.wall v.world ⟨⟨rfl, rfl⟩, hok _ _ _ _ _ (hv.benign _ rfl rfl)⟩ ?_
    rw [show c.lifetime expiresAt v.world.wall = ttl by rw [httl, hv.wall]; rfl]
    exact .act () w₂ ⟨hins, hok _ _ _ _ _ (hread.benign _ hnow₂ hwall₂)⟩ (.refl _ _)

/-- The first request, up to its write: a miss, a validation, and the entry. -/
theorem exists_first (h : c.CachedUntil r key claims user w₀ ttl deadline)
    (hok : ∀ i v op a w, Benign claims w₀ v op w → ok i v op a w) :
    ∃ v, Alone (c.machine.restrict ok drop tick) 0 r ⟨w₀, []⟩ (c.body r) v
        (.ret (.ok (.authenticated user)))
      ∧ Standing claims w₀ v
      ∧ (∃ e, v.world.cache.entries.lookup
          (c.cacheKey (AuthScope.cacheDiscriminator r.scope) key) = some e
        ∧ e.value = ⟨user, 0⟩ ∧ e.expiresAt = deadline)
      ∧ ∃ ev ∈ v.history, ev.task = 0
        ∧ ev.Did (.validate key (AuthScope.cacheDiscriminator r.scope)) (.ok claims) := by
  set scope := AuthScope.cacheDiscriminator r.scope with hscope
  set k := c.cacheKey scope key with hk
  -- the lookup misses the empty cache and moves only its logical clock
  set w₁ : CacheWorld U := { w₀ with cache := (w₀.cache.get w₀.now k).2 } with hw₁
  have hmiss : CacheWorld.exec 0 w₀ (.cacheGet k) none w₁ := by
    refine ⟨?_, rfl⟩
    rw [h.empty]
    rfl
  have hcfg : w₁.cache.config = c.cacheConfig := by
    rw [CacheWorld.config_of_exec hmiss, h.empty]
    rfl
  have hv₀ : Standing claims w₀ (⟨w₀, []⟩ : CacheView (AuthContext S) U) :=
    ⟨rfl, rfl, by intro ev hev; exact absurd hev (by simp)⟩
  have hv₁ : Standing claims w₀
      ((⟨w₀, []⟩ : CacheView (AuthContext S) U).after ⟨0, r, .cacheGet k, none, w₀, w₁⟩) :=
    ⟨rfl, rfl, hv₀.all.cons _ rfl rfl (by intro _ _ _ hd; cases hd) (by intro _ hd; cases hd)⟩
  have hv₂ := hv₁.all.cons ⟨0, r, .validate key scope, .ok claims, w₁, w₁⟩ rfl rfl
    (by intro _ _ _ hd; cases hd; rfl) (by intro _ hd; cases hd)
  obtain ⟨v, halone, hstanding, hold, hentry⟩ :=
    c.exists_validated ok drop tick h hok (v := ⟨w₁, _⟩) ⟨rfl, rfl, hv₂⟩ hcfg
  refine ⟨v, ?_, hstanding, hentry, _, hold _ List.mem_cons_self, rfl, rfl⟩
  rw [h.body_eq]
  exact .act none w₁ ⟨hmiss, hok _ _ _ _ _ (hv₀.benign _ rfl rfl)⟩
    (.act (.ok claims) w₁ ⟨rfl, hok _ _ _ _ _ (hv₁.benign _ rfl rfl)⟩ halone)

/-- **A validated key is served from the cache until the deadline of its entry**, whatever the
validator would say by then. Which runs these are is a parameter, so that they can be picked to meet
a condition or to break it. -/
theorem exists_revisit (h : c.CachedUntil r key claims user w₀ ttl deadline)
    (hok : ∀ i v op a w, Benign claims w₀ v op w → ok i v op a w)
    (later : Instant) (laterWall : SystemTime) (hle : w₀.now ≤ later) (hlt : later < deadline)
    (htick : ∀ w w', w.now = w₀.now → w.wall = w₀.wall → w'.now = later → w'.wall = laterWall →
      tick w w') :
    ∃ s hit past, Reachable (c.machine.restrict ok drop tick) s
      ∧ s.view.history = hit :: past ∧ s.Returned 1 r (.ok (.authenticated user))
      ∧ AllAt w₀.now w₀.wall claims past ∧ c.ServedAgain r key claims user hit past
      ∧ hit.pre.now = later ∧ hit.pre.wall = laterWall
      ∧ ∀ i r', s.Submitted i r' → r' = r := by
  obtain ⟨v, hfirst, ⟨hnow, hwall, hall⟩, ⟨e, he, hval, hexp⟩, hvalidated⟩ :=
    c.exists_first ok drop tick h hok
  obtain ⟨s₁, hs₁, hview₁, hrun₁, hidle₁⟩ :=
    (Reachable.init w₀ h.empty : Reachable (c.machine.restrict ok drop tick) _).submit
      (i := 0) rfl hfirst
  -- time passes, and the key is presented again
  set w₃ : CacheWorld U := { v.world with now := later, wall := laterWall } with hw₃
  set k := c.cacheKey (AuthScope.cacheDiscriminator r.scope) key with hk
  have htime : CacheWorld.elapse s₁.view.world w₃ := by
    rw [hview₁]
    refine ⟨?_, rfl⟩
    show v.world.now ≤ later
    rw [hnow]
    exact hle
  have hs₂ : Reachable (c.machine.restrict ok drop tick) ⟨s₁.view.withWorld w₃, s₁.tasks⟩ :=
    hs₁.step (.env w₃ ⟨htime, htick _ _ (by rw [hview₁]; exact hnow) (by rw [hview₁]; exact hwall)
      rfl rfl⟩)
  have hget : (w₃.cache.get w₃.now k).1 = some ⟨user, 0⟩ :=
    CredentialCache.get_eq_some_iff.mpr ⟨e, he, by rw [hexp]; exact hlt, hval⟩
  have hhit : CacheWorld.exec 1 w₃ (.cacheGet k) (some user)
      { w₃ with cache := (w₃.cache.get w₃.now k).2 } := by
    refine ⟨?_, rfl⟩
    rw [hget]
    rfl
  have hsecond : Alone (c.machine.restrict ok drop tick) 1 r (s₁.view.withWorld w₃) (c.body r)
      ((s₁.view.withWorld w₃).after
        ⟨1, r, .cacheGet k, some user, w₃, { w₃ with cache := (w₃.cache.get w₃.now k).2 }⟩)
      (.ret (.ok (.authenticated user))) := by
    rw [h.body_eq]
    refine .act (some user) _ ⟨hhit, hok _ _ _ _ _ ⟨rfl, rfl, ?_, by intro _ _ _ hop; cases hop⟩⟩
      (.refl _ _)
    rw [View.withWorld_history, hview₁]
    exact hall
  obtain ⟨s, hs, hview, hrun, hframe⟩ := hs₂.submit (hidle₁ 1 (by decide)) hsecond
  refine ⟨s, ⟨1, r, .cacheGet k, some user, w₃, { w₃ with cache := (w₃.cache.get w₃.now k).2 }⟩,
    v.history, hs, ?_, hrun, hall, ⟨rfl, rfl, ⟨e, he, hval⟩, hvalidated⟩, rfl, rfl, ?_⟩
  · rw [hview, View.after_history, View.withWorld_history, hview₁]
  · intro i r' hsub
    by_cases h1 : i = 1
    · subst h1
      exact hsub.unique (.inl ⟨_, hrun⟩)
    · by_cases h0 : i = 0
      · subst h0
        exact hsub.unique (.inl ⟨_, (hframe 0 h1).trans hrun₁⟩)
      · have hidle : s.tasks i = .idle := (hframe i h1).trans (hidle₁ i h0)
        exact absurd hidle hsub.not_idle

end Revisit

end ApiTokenService

/-! ## An introspected key

A deployment without static tokens, whose validator knows the key `abc`. -/

/-- The default cache, under the given cap. -/
def introspected (maxCacheTtl : Duration) : ApiTokenService where
  blake3 := blake3OfAbc
  keyPrefix := "sptok_"
  keyPrefix_ne := sptok_ne_empty
  tokens := []
  validatorName := "introspection"
  maxCacheTtl := maxCacheTtl
  cacheConfig := {}

def abcRequest : AuthContext NoScope := ⟨{}, .bearer "sptok_abc", .noScope⟩

/-- What the validator says of `abc`. -/
def abcClaims (expiresAt : Option SystemTime) : IdentityClaims :=
  { subject := some "ci", email := some "ci@example.com", expiresAt := expiresAt,
    source := .introspection }

/-- A thousand seconds into the epoch. -/
def abcStart : CacheWorld User where
  cache := .new {}
  now := ⟨0, Instant.zero_lt_max⟩
  wall := ⟨1000 * 1000000000, by decide, by decide⟩

/-- Seconds on the monotonic clock of the example. -/
def abcAfter (secs : Fin 1000) : Instant := ⟨secs * 1000000000, by have := secs.isLt; omega⟩

def abcWallAfter (secs : Fin 1000) : SystemTime :=
  ⟨(1000 + secs) * 1000000000, by omega, by have := secs.isLt; omega⟩

/-- **Without an expiry ahead of the clock the cap plays no part**: the key is cached for the
fallback less the margin, thirty seconds, whatever the cap is. -/
theorem introspected_cachedUntil (maxCacheTtl : Duration) (expiresAt : Option SystemTime)
    (h : ∀ e ∈ expiresAt, e.nanos < abcStart.wall.nanos) :
    (introspected maxCacheTtl).CachedUntil abcRequest "abc" (abcClaims expiresAt)
      (⟨"ci@example.com", "ci@example.com"⟩ : User) abcStart none (abcAfter 30) where
  key_eq := by
    show Text.stripPrefix "sptok_" "sptok_abc" = some "abc"
    decide
  unmatched := rfl
  converted := rfl
  empty := rfl
  ttl_eq := by
    show none = expiresAt.bind _
    cases expiresAt with
    | none => rfl
    | some e =>
      show none = (introspected maxCacheTtl).lifetime e abcStart.wall
      unfold ApiTokenService.lifetime
      rw [SystemTime.durationSince_of_lt (h e rfl)]
      rfl
  ttl_ne := by
    show (CredentialCache.ttl {} none).nanos ≠ 0
    decide
  maxEntries_ne := by
    show 10000 ≠ 0
    decide
  fits := by
    show abcStart.now.checkedAdd (CredentialCache.ttl {} none) = some (abcAfter 30)
    decide

/-- An expiry a hundred seconds ahead, under the default cap: cached for seventy. -/
theorem introspected_cachedUntil_ahead :
    (introspected (.fromSecs 300)).CachedUntil abcRequest "abc" (abcClaims (some (abcWallAfter 100)))
      (⟨"ci@example.com", "ci@example.com"⟩ : User) abcStart (some (.fromSecs 100)) (abcAfter 70) where
  key_eq := by
    show Text.stripPrefix "sptok_" "sptok_abc" = some "abc"
    decide
  unmatched := rfl
  converted := rfl
  empty := rfl
  ttl_eq := by
    show _ = (introspected (.fromSecs 300)).lifetime (abcWallAfter 100) abcStart.wall
    decide
  ttl_ne := by
    show (CredentialCache.ttl {} (some (.fromSecs 100))).nanos ≠ 0
    decide
  maxEntries_ne := by
    show 10000 ≠ 0
    decide
  fits := by
    show abcStart.now.checkedAdd (CredentialCache.ttl {} (some (.fromSecs 100))) = some (abcAfter 70)
    decide

end AuthnKit
