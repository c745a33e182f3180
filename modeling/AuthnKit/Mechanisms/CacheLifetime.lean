import AuthnKit.Mechanisms.NeverCrossed

/-!
# AuthnKit — how long a validated key is served

Two promises about the lifetime of an entry: no longer than `max_cache_ttl` after the validation
behind it, and not past the expiry that validation reported. Both rest on `cache_ttl`, which
answers `None` for a missing *and* for a past expiry, and on `insert`, which then takes the
fallback of the cache configuration and subtracts the margin; neither looks at the cap or at the
expiry again.

* **`requested`** — the lifetime that is asked of the cache, in the terms of its inputs.
* **`revocation_lag_capped`** — the cap holds in every run whose writes are `WithinCap`.
* **`never_served_past_expiry`** — the expiry holds in every run whose writes are `WithinExpiry`.
-/

namespace AuthnKit

open Interleave

variable {U S : Type} [Principal U] [AuthScope S]

namespace ApiTokenService

variable (c : ApiTokenService)

/-! ## The lifetime of an entry

What the cache is asked for is computed from a reported expiry, a reading of the wall clock, the cap
and the fallback. The margin comes off that in the cache. -/

/-- The lifetime asked of the cache, in nanoseconds: the time to an expiry that lies ahead of the
clock, up to the cap; otherwise the fallback. -/
def requested (expiresAt : Option SystemTime) (clock : SystemTime) : ℕ :=
  match expiresAt with
  | some e =>
    if clock.nanos ≤ e.nanos then min (e.nanos - clock.nanos).toNat c.maxCacheTtl.nanos
    else c.cacheConfig.fallbackTtl.nanos
  | none => c.cacheConfig.fallbackTtl.nanos

/-- Nothing is stored: the cache is off, or the margin swallows the lifetime. -/
def StoresNothing (expiresAt : Option SystemTime) (clock : SystemTime) : Prop :=
  c.cacheConfig.maxEntries = 0
    ∨ c.requested expiresAt clock ≤ c.cacheConfig.refreshMargin.nanos

/-- The reading of the wall clock that task `i` took for an expiry; without one it took none. -/
def Clock (past : List (CacheEvent (AuthContext S) U)) (i : ℕ) (expiresAt : Option SystemTime)
    (clock : SystemTime) : Prop :=
  expiresAt = none ∨ ∃ reading ∈ past, reading.task = i ∧ reading.Did .systemNow clock

omit [Principal U] [AuthScope S] in
/-- **The lifetime of an entry**, from the expiry its validation reported and the reading the task
took for it. An expiry that has passed counts as none, and leads to the fallback. -/
theorem LifetimeFrom.ttl_nanos {past : List (CacheEvent (AuthContext S) U)} {i : ℕ}
    {expiresAt : Option SystemTime} {expiresIn : Option Duration}
    (h : c.LifetimeFrom past i expiresAt expiresIn) :
    ∃ clock, Clock past i expiresAt clock
      ∧ (CredentialCache.ttl c.cacheConfig expiresIn).nanos
        = c.requested expiresAt clock - c.cacheConfig.refreshMargin.nanos := by
  cases expiresAt with
  | none =>
    have hnone : expiresIn = none := h
    subst hnone
    exact ⟨.epoch, .inl rfl, rfl⟩
  | some e =>
    obtain ⟨reading, hmem, htask, now, hdid, rfl⟩ := h
    refine ⟨now, .inr ⟨reading, hmem, htask, hdid⟩, ?_⟩
    unfold CredentialCache.ttl requested lifetime
    by_cases hle : now.nanos ≤ e.nanos
    · obtain ⟨d, hd, hnanos⟩ := SystemTime.durationSince_of_le hle
      have hd' : d.nanos = (e.nanos - now.nanos).toNat := by omega
      rw [hd]
      simp only [Option.map_some, Option.getD_some, Duration.saturatingSub_nanos,
        Duration.min_nanos, hd', if_pos hle]
    · rw [SystemTime.durationSince_of_lt (by omega)]
      simp only [Option.map_none, Option.getD_none, Duration.saturatingSub_nanos, if_neg hle]

/-! ## What stands behind a hit

An answer from the cache is traced back over the entry and its write to the validation, with the
time of each of them, so that bounds between these times can be put together. -/

/-- Everything behind an answer from the cache: the entry it was served from, the write that
stored the entry and the validation before that. -/
structure Behind (s : ServiceState U S) (hit : CacheEvent (AuthContext S) U)
    (past : List (CacheEvent (AuthContext S) U)) (k : CacheKey) (user : U)
    (e : Entry (Stamped U)) (write : CacheEvent (AuthContext S) U)
    (before : List (CacheEvent (AuthContext S) U)) (expiresIn : Option Duration)
    (validation : CacheEvent (AuthContext S) U) (key : String) (scope : Option String)
    (claims : IdentityClaims) : Prop where
  entry : hit.pre.cache.entries.lookup k = some e
  unexpired : hit.pre.now < e.expiresAt
  user_eq : e.value.user = user
  written : c.spec.Written past k e write before expiresIn
  backed : c.Backed before e.value.writer k e.value.user expiresIn validation key scope claims
  happened : Happened s.view.history write before
  earlier : validation ∈ past

/-- Behind every hit there is such a chain of events, by the provenance of its entry. -/
theorem exists_behind {s : ServiceState U S} (hs : Reachable c.machine s)
    {hit : CacheEvent (AuthContext S) U} {past : List (CacheEvent (AuthContext S) U)}
    (hhit : Happened s.view.history hit past) {k : CacheKey} {user : U}
    (hdid : hit.Did (.cacheGet k) (some user)) :
    ∃ e write before expiresIn validation key scope claims,
      c.Behind s hit past k user e write before expiresIn validation key scope claims := by
  have hholds : c.spec.contract.Holds s := hs.holds c.spec_valid
  obtain ⟨e, he, ⟨write, before, expiresIn, hw, validation, key, scope, claims, hb⟩, hlt, huser⟩ :=
    hholds.inv.served hit past hhit k user hdid
  exact ⟨e, write, before, expiresIn, validation, key, scope, claims, he, hlt, huser, hw, hb,
    hhit.trans hw.happened, hw.happened.past_mem hb.mem⟩

/-! ## The cap

From the validation to a hit there pass the time until the write and the time since. The cap bounds
their sum where the write respects it, and the code does not make every write do so. -/

/-- A hit comes less than `max_cache_ttl` after a successful validation of the key that is
presented, on its scope. -/
def LagCapped (s : ServiceState U S) : Prop :=
  ∀ hit past, Happened s.view.history hit past → ∀ k user, hit.Did (.cacheGet k) (some user) →
    ∀ key, c.keyOf hit.req.credential = some key →
      ∃ validation ∈ past, ∃ claims,
        validation.Did (.validate key (AuthScope.cacheDiscriminator hit.req.scope)) (.ok claims)
        ∧ hit.pre.now.nanos < validation.post.now.nanos + c.maxCacheTtl.nanos

/-- **When a write respects the cap**: nothing is stored, or the lifetime and the time since the
validation stay within it. -/
def WithinCap (i : ℕ) (v : CacheView (AuthContext S) U) (op : MechOp U) (_ : op.Answer)
    (w : CacheWorld U) : Prop :=
  ∀ k user expiresIn, op = .cacheInsert k user expiresIn →
    ∀ validation ∈ v.history, validation.task = i →
    ∀ key scope claims, validation.Did (.validate key scope) (.ok claims) →
    ∀ clock, Clock v.history i claims.expiresAt clock →
      c.StoresNothing claims.expiresAt clock
      ∨ c.requested claims.expiresAt clock - c.cacheConfig.refreshMargin.nanos
          + (w.now.nanos - validation.post.now.nanos) ≤ c.maxCacheTtl.nanos

/-- The runs whose writes all respect the cap. -/
def cappedMachine : Machine (AuthContext S) (MechOp U) MechOp.Answer (CacheWorld U)
    (Except AuthError (Verdict U)) :=
  c.machine.restrict c.WithinCap (fun _ _ _ _ => True) fun _ _ => True

/-- **Revocation lag is capped** in every run whose writes respect the cap: at a hit, the validation
behind it of the key that is presented lies back less than the cap. -/
theorem revocation_lag_capped {s : ServiceState U S} (hs : Reachable c.cappedMachine s)
    (hcol : NoCollision c.blake3 (c.Presented s)) : c.LagCapped s := by
  have hm : Reachable c.machine s := hs.of_restrict
  have hholds : c.spec.contract.Holds s := hm.holds c.spec_valid
  have hord : s.view.Ordered fun w w' => w.now ≤ w'.now :=
    hm.ordered (cacheMachine_advances c.cacheConfig c.body)
  intro hit past hhit k user hdid key hkey
  obtain ⟨e, write, before, expiresIn, validation, key', scope, claims, hb⟩ :=
    c.exists_behind hm hhit hdid
  -- the validation was of the key that is presented
  have hvalmem : validation ∈ s.view.history := hhit.past_mem hb.earlier
  have habout : c.About hit.req hit.op := hholds.inv.about hit hhit.mem
  have hsub : s.Submitted hit.task hit.req := hholds.submitted hit hhit.mem
  have hsame : key' = key ∧ scope = AuthScope.cacheDiscriminator hit.req.scope := by
    obtain ⟨task, req, op, ans, pre, post⟩ := hit
    cases hdid
    obtain ⟨key₂, hkey₂, hk⟩ := habout
    have hkeys : key₂ = key := Option.some.inj (hkey₂.symm.trans hkey)
    subst hkeys
    obtain ⟨hscope, hdigest⟩ := c.cacheKey_inj (hb.backed.key_eq.symm.trans hk)
    refine ⟨hcol key' key₂ ?_ ⟨task, req, hsub, hkey₂⟩ hdigest, hscope⟩
    exact (c.presented_of_validate hm hvalmem hb.backed.answer).1
  obtain ⟨rfl, rfl⟩ := hsame
  refine ⟨validation, hb.earlier, claims, hb.backed.answer, ?_⟩
  -- the lifetime of the entry, counted from the validation
  obtain ⟨clock, hclock, httl⟩ := hb.backed.lifetime.ttl_nanos
  have hwithin : c.WithinCap write.task ⟨write.pre, before⟩ write.op write.ans write.post :=
    hs.restrict_ok hb.happened
  rw [hb.written.task] at hwithin
  have hop : write.op = .cacheInsert k e.value.user expiresIn :=
    congrArg Sigma.fst hb.written.wrote
  have hstep₁ : validation.post.now ≤ write.pre.now :=
    hord.past write before hb.happened validation hb.backed.mem
  have hstep₂ : write.pre.now ≤ write.post.now := hord.step write hb.happened.mem
  have hcap := hwithin k _ expiresIn hop validation hb.backed.mem hb.backed.task key' _ claims
    hb.backed.answer clock hclock
  have hne := hb.written.ttl_ne
  have hconfig : (c.spec (U := U) (S := S)).config = c.cacheConfig := rfl
  have hunexpired := hb.unexpired
  rw [Instant.lt_def, hb.written.deadline, hconfig, httl] at hunexpired
  rw [hconfig, httl] at hne
  rw [Instant.le_def] at hstep₁ hstep₂
  rcases hcap with (hzero | hzero) | hcap
  · exact absurd hzero hb.written.maxEntries_ne
  · omega
  · omega

/-- **A cap of ten seconds does not hold**: without a reported expiry the key is still served after
twenty, as the fallback is not bounded by the cap. -/
theorem ten_second_cap_exceeded :
    ∃ s : ServiceState User NoScope, Reachable (introspected (.fromSecs 10)).machine s
      ∧ NoCollision (introspected (.fromSecs 10)).blake3
        ((introspected (.fromSecs 10)).Presented s)
      ∧ ¬ (introspected (.fromSecs 10)).LagCapped s := by
  obtain ⟨s, hit, past, hs, hhist, _, hall, hserved, hnow, _, honly⟩ :=
    (introspected (.fromSecs 10)).exists_revisit (fun _ _ _ _ _ => True) (fun _ _ _ _ => True)
      (fun _ _ => True) (introspected_cachedUntil (.fromSecs 10) none (by simp))
      (fun _ _ _ _ _ _ => trivial) (abcAfter 20) (abcWallAfter 20) (by decide) (by decide)
      (fun _ _ _ _ _ _ => trivial)
  refine ⟨s, hs.of_restrict, noCollision_of_single _ honly, ?_⟩
  intro hcap
  have hkey : (introspected (.fromSecs 10)).keyOf hit.req.credential = some "abc" := by
    rw [hserved.req]
    show Text.stripPrefix "sptok_" "sptok_abc" = some "abc"
    decide
  obtain ⟨validation, hmem, _, _, hlt⟩ := hcap hit past ⟨[], hhist⟩ _ _ hserved.answer "abc" hkey
  rw [hnow, (hall validation hmem).1] at hlt
  exact absurd hlt (by decide)

/-- Under the default cap the same run is within it. -/
theorem default_cap_holds :
    ∃ s : ServiceState User NoScope,
      s.Returned 1 abcRequest (.ok (.authenticated ⟨"ci@example.com", "ci@example.com"⟩))
      ∧ (introspected (.fromSecs 300)).LagCapped s := by
  have hok : ∀ i v op a w, Benign (S := NoScope) (abcClaims none) abcStart v op w →
      (introspected (.fromSecs 300)).WithinCap i v op a w := by
    intro i v op a w h k user expiresIn hop validation hmem _ key scope claims hans clock _
    obtain ⟨hnow, _, hval, _⟩ := h.all validation hmem
    rw [hval key scope claims hans, hnow, h.now, (h.write k user expiresIn hop).1]
    right
    show 60 * 1000000000 - 30 * 1000000000 + (0 - 0) ≤ 300 * 1000000000
    decide
  obtain ⟨s, _, _, hs, _, hret, _, _, _, _, honly⟩ :=
    (introspected (.fromSecs 300)).exists_revisit (introspected (.fromSecs 300)).WithinCap
      (fun _ _ _ _ => True) (fun _ _ => True) (introspected_cachedUntil (.fromSecs 300) none (by simp))
      hok (abcAfter 20) (abcWallAfter 20) (by decide) (by decide) (fun _ _ _ _ _ _ => trivial)
  exact ⟨s, hret, revocation_lag_capped _ hs (noCollision_of_single _ honly)⟩

/-! ## The expiry

An expiry is a time of the wall clock, an entry's deadline one of the monotonic clock. They can be
compared in the runs in which both clocks move forward together. -/

/-- The wall clock and the monotonic clock move forward together. -/
def InStep (w w' : CacheWorld U) : Prop :=
  w.now ≤ w'.now ∧ w'.wall.nanos - w.wall.nanos = (w'.now.nanos : ℤ) - w.now.nanos

/-- The runs in which they do. -/
def inStepMachine : Machine (AuthContext S) (MechOp U) MechOp.Answer (CacheWorld U)
    (Except AuthError (Verdict U)) :=
  c.machine.restrict (fun _ v _ _ w => InStep v.world w) (fun _ v _ w => InStep v.world w) InStep

/-- No hit at or after an expiry is answered from an entry that was stored on the validation
which reported it: by the stamp, the validation of the task that wrote the entry. -/
def NeverPastExpiry (s : ServiceState U S) : Prop :=
  ∀ hit past, Happened s.view.history hit past → ∀ k user, hit.Did (.cacheGet k) (some user) →
    ∀ e, hit.pre.cache.entries.lookup k = some e →
    ∀ validation ∈ past, validation.task = e.value.writer →
    ∀ key scope claims, validation.Did (.validate key scope) (.ok claims) →
    ∀ expiry, claims.expiresAt = some expiry → hit.pre.wall.nanos < expiry.nanos

/-- **When a write respects the expiry**: nothing is stored, or the lifetime ends by then. -/
def WithinExpiry (i : ℕ) (v : CacheView (AuthContext S) U) (op : MechOp U) (_ : op.Answer)
    (w : CacheWorld U) : Prop :=
  ∀ k user expiresIn, op = .cacheInsert k user expiresIn →
    ∀ validation ∈ v.history, validation.task = i →
    ∀ key scope claims, validation.Did (.validate key scope) (.ok claims) →
    ∀ expiry, claims.expiresAt = some expiry →
    ∀ clock, Clock v.history i (some expiry) clock →
      c.StoresNothing (some expiry) clock
      ∨ w.wall.nanos + (c.requested (some expiry) clock - c.cacheConfig.refreshMargin.nanos : ℕ)
          ≤ expiry.nanos

/-- The runs in which the clocks move together and writes respect the expiry. -/
def timelyMachine : Machine (AuthContext S) (MechOp U) MechOp.Answer (CacheWorld U)
    (Except AuthError (Verdict U)) :=
  c.machine.restrict (fun i v op a w => InStep v.world w ∧ c.WithinExpiry i v op a w)
    (fun _ v _ w => InStep v.world w) InStep

/-- In these runs every step moves both clocks forward, by the same time. -/
theorem timelyMachine_advances :
    (c.timelyMachine (U := U) (S := S)).Advances InStep where
  refl _ := ⟨Nat.le_refl _, by omega⟩
  trans _ _ _ h₁ h₂ := ⟨Nat.le_trans h₁.1 h₂.1, by have := h₁.2; have := h₂.2; omega⟩
  exec _ _ _ _ _ h := h.2.1
  abandon _ _ _ _ h := h.2
  env _ _ h := h.2

/-- **A key is not served past its reported expiry** in any run whose writes respect it. The
deadline of the entry then lies before the expiry, on either clock. -/
theorem never_served_past_expiry {s : ServiceState U S} (hs : Reachable c.timelyMachine s) :
    NeverPastExpiry s := by
  have hm : Reachable c.machine s := hs.of_restrict
  have hholds : c.spec.contract.Holds s := hm.holds c.spec_valid
  have hord : s.view.Ordered InStep := hs.ordered c.timelyMachine_advances
  intro hit past hhit k user hdid e he validation hval htask key scope claims hans expiry hexp
  obtain ⟨e', write, before, expiresIn, validation', key', scope', claims', hb⟩ :=
    c.exists_behind hm hhit hdid
  have hentry : e' = e := Option.some.inj (hb.entry.symm.trans he)
  subst hentry
  -- the writer validated once, so this is the answer the entry was stored on
  have hsub : s.Submitted e'.value.writer validation.req := by
    rw [← htask]
    exact hholds.submitted validation (hhit.past_mem hval)
  obtain ⟨p, hleads⟩ := hm.leads hsub
  have hmem : ⟨.validate key scope, .ok claims⟩ ∈ s.view.trace e'.value.writer :=
    View.mem_trace.mpr ⟨validation, hhit.past_mem hval, htask, hans⟩
  have hmem' : ⟨.validate key' scope', .ok claims'⟩ ∈ s.view.trace e'.value.writer :=
    View.mem_trace.mpr ⟨validation', hhit.past_mem hb.earlier, hb.backed.task, hb.backed.answer⟩
  have hsame := c.validates_once hleads hmem hmem'
  have hclaims : claims' = claims := by
    cases hsame
    rfl
  have hans' := hb.backed.answer
  have hlife := hb.backed.lifetime
  rw [hclaims] at hans'
  rw [hclaims, hexp] at hlife
  -- its lifetime ends by the expiry
  obtain ⟨clock, hclock, httl⟩ := hlife.ttl_nanos
  have hwithin := (hs.restrict_ok hb.happened).2
  rw [hb.written.task] at hwithin
  have hop : write.op = .cacheInsert k e'.value.user expiresIn :=
    congrArg Sigma.fst hb.written.wrote
  have hend := hwithin k _ expiresIn hop validation' hb.backed.mem hb.backed.task key' scope' claims
    hans' expiry hexp clock hclock
  have hwrite : write ∈ past := hb.written.happened.mem
  have htime := (hord.past hit past hhit write hwrite).2
  have hne := hb.written.ttl_ne
  have hconfig : (c.spec (U := U) (S := S)).config = c.cacheConfig := rfl
  have hunexpired := hb.unexpired
  rw [Instant.lt_def, hb.written.deadline, hconfig, httl] at hunexpired
  rw [hconfig, httl] at hne
  rcases hend with (hzero | hzero) | hend
  · exact absurd hzero hb.written.maxEntries_ne
  · omega
  · omega

/-- The second before the example starts. -/
def abcExpired : SystemTime := ⟨999 * 1000000000, by decide, by decide⟩

/-- **A key that was reported as expired is served**: twenty seconds after the validator called it
expired it is answered from the cache. -/
theorem expired_key_served :
    ∃ s : ServiceState User NoScope, Reachable (introspected (.fromSecs 300)).inStepMachine s
      ∧ ¬ NeverPastExpiry s := by
  obtain ⟨s, hit, past, hs, hhist, _, _, hserved, _, hwall, _⟩ :=
    (introspected (.fromSecs 300)).exists_revisit (fun _ v _ _ w => InStep v.world w)
      (fun _ v _ w => InStep v.world w) InStep
      (introspected_cachedUntil (.fromSecs 300) (some abcExpired)
        (by intro e he; cases he; decide))
      (fun _ v _ _ w h => ⟨Nat.le_of_eq (congrArg Instant.nanos h.now.symm), by
        rw [h.now, h.wall]; omega⟩)
      (abcAfter 20) (abcWallAfter 20) (by decide) (by decide)
      (fun w w' h h' h₁ h₁' => ⟨by rw [h, h₁]; decide, by rw [h, h', h₁, h₁']; decide⟩)
  refine ⟨s, hs, ?_⟩
  intro hnever
  obtain ⟨e, he, hstamp⟩ := hserved.entry
  obtain ⟨validation, hmem, htask, hans⟩ := hserved.validation
  have hlt := hnever hit past ⟨[], hhist⟩ _ _ hserved.answer e he validation hmem
    (by rw [hstamp]; exact htask) _ _ _ hans abcExpired rfl
  rw [hwall] at hlt
  exact absurd hlt (by decide)

/-- An expiry that lies ahead is kept: fifty seconds before it the key is still served. -/
theorem expiry_ahead_kept :
    ∃ s : ServiceState User NoScope,
      s.Returned 1 abcRequest (.ok (.authenticated ⟨"ci@example.com", "ci@example.com"⟩))
      ∧ NeverPastExpiry s := by
  have hok : ∀ i v op a w, Benign (S := NoScope) (abcClaims (some (abcWallAfter 100))) abcStart v op w →
      InStep v.world w ∧ (introspected (.fromSecs 300)).WithinExpiry i v op a w := by
    intro i v op a w h
    refine ⟨⟨Nat.le_of_eq (congrArg Instant.nanos h.now.symm), by rw [h.now, h.wall]; omega⟩, ?_⟩
    intro k user expiresIn hop validation hmem _ key scope claims hans expiry hexp clock hclock
    rw [(h.all validation hmem).2.2.1 key scope claims hans] at hexp
    have hexpiry : abcWallAfter 100 = expiry := Option.some.inj hexp
    obtain ⟨reading, hread, _, hdid⟩ := hclock.resolve_left (by simp)
    rw [← hexpiry, (h.all reading hread).2.2.2 clock hdid, h.wall, (h.write k user expiresIn hop).2]
    right
    decide
  obtain ⟨s, _, _, hs, _, hret, _⟩ :=
    (introspected (.fromSecs 300)).exists_revisit
      (fun i v op a w => InStep v.world w ∧ (introspected (.fromSecs 300)).WithinExpiry i v op a w)
      (fun _ v _ w => InStep v.world w) InStep introspected_cachedUntil_ahead hok (abcAfter 50)
      (abcWallAfter 50) (by decide) (by decide)
      (fun w w' h h' h₁ h₁' => ⟨by rw [h, h₁]; decide, by rw [h, h', h₁, h₁']; decide⟩)
  exact ⟨s, hret, never_served_past_expiry _ hs⟩

end ApiTokenService

end AuthnKit
