import AuthnKit.Cache.Locking
import AuthnKit.Foundation.Justified

/-!
# AuthnKit — runs of the locked cache

What the calls of `Cache.Locking` come to.

* **`latestPut_of_reachable`** — what the map says was put there, and has stood since.
* **`undisturbed`** — a call that nobody disturbs does what `Cache.Credential` says.
* **`calls_take_effect`** — in any run each call takes effect at once, at one of its own accesses.
* **`calls_settle`** — no run gets stuck, also after panics.
-/

namespace AuthnKit

open Interleave

namespace LockedCache

variable {U : Type} {config : CacheConfig} {r : LockedCall U} {i : ℕ} {v : CallView U}

/-! ## What the map says

A lookup is answered by what the map says at its access. The map, in turn, says only what was put
into it by an event of the run, and what nothing has changed since. -/

/-- **An access that does not write keeps what the map says, or drops it**; only a store adds
something, and that is its own entry. -/
theorem contents_of_exec {w w' : LockWorld U} {o : LockOp U} {a : o.Answer}
    (hx : LockWorld.exec i w o a w') {k : CacheKey} {x : U × Instant}
    (hk : w'.contents k = some x) :
    w.contents k = some x ∨ ∃ e, o = .put k e ∧ x = (e.value, e.expiresAt) := by
  have hle : ∀ t : Table CacheKey (Entry U), Table.Le t w.entries → t.contents k = some x →
      w.contents k = some x := by
    intro t hle ht
    obtain ⟨e, he, hxe⟩ := Option.map_eq_some_iff.mp ht
    exact Option.map_eq_some_iff.mpr ⟨e, hle k e he, hxe⟩
  cases o with
  | put k' e =>
    cases hx
    by_cases hkk : k = k'
    · subst hkk
      right
      refine ⟨e, rfl, ?_⟩
      have hself : ((w.entries.insert k e).lookup k).map _ = some x := hk
      rw [AList.lookup_insert] at hself
      exact (Option.some.inj hself).symm
    · left
      have hother : ((w.entries.insert k' e).lookup k).map _ = some x := hk
      rw [AList.lookup_insert_ne hkk] at hother
      exact hother
  | remove k' =>
    cases hx
    exact .inl (hle _ (Table.erase_le k' _) hk)
  | retain now =>
    cases hx
    exact .inl (hle _ (Table.retain_le _ _) hk)
  | touch k' tick =>
    cases hx
    have htouched : (LockWorld.touched w.entries k' tick).contents k = some x := hk
    rw [contents_touched] at htouched
    exact .inl htouched
  | unread | unwrite =>
    cases hx
    exact .inl hk
  | write =>
    obtain ⟨-, -, rfl⟩ := hx
    exact .inl hk
  | _ =>
    obtain ⟨-, rfl⟩ := hx
    exact .inl hk

abbrev CallState (U : Type) :=
  State (LockedCall U) (LockOp U) LockOp.Answer (LockWorld U) (LockedReply U)

/-- `put` stored what the map says of `k` after `history`, and nothing has changed it since. -/
def LatestPut (history : List (CallEvent U)) (k : CacheKey) (x : U × Instant) : Prop :=
  ∃ put before later, history = later ++ put :: before
    ∧ (∃ e : Entry U, put.Did (.put k e) () ∧ x = (e.value, e.expiresAt))
    ∧ ∀ ev ∈ later, ev.post.contents k = some x

/-- One more event that leaves what the map says of the key leaves its latest store. -/
theorem LatestPut.cons {history : List (CallEvent U)} {k : CacheKey} {x : U × Instant}
    (h : LatestPut history k x) {ev : CallEvent U} (hev : ev.post.contents k = some x) :
    LatestPut (ev :: history) k x := by
  obtain ⟨put, before, later, rfl, hput, hlater⟩ := h
  refine ⟨put, before, ev :: later, rfl, hput, ?_⟩
  intro ev' hev'
  rcases List.mem_cons.mp hev' with rfl | hmem
  · exact hev
  · exact hlater ev' hmem

/-- **What the map says was put there**, and has stood since. Induction on the run: a step keeps
what the map says of a key, or is itself the store. -/
theorem latestPut_of_reachable {s : CallState U} (hs : Reachable (machine config) s) {k : CacheKey}
    {x : U × Instant} (hk : s.view.world.contents k = some x) : LatestPut s.view.history k x := by
  induction hs with
  | init w hw =>
    have hempty : (w.entries.lookup k).map _ = some x := hk
    rw [hw.1, AList.lookup_empty] at hempty
    cases hempty
  | @step s s' hs hstep ih =>
    cases hstep with
    | spawn i r hi => exact ih hk
    | @act i r o next hi a w hx =>
      rcases contents_of_exec hx hk with hold | ⟨e, rfl, rfl⟩
      · exact (ih hold).cons hk
      · exact ⟨_, s.view.history, [], rfl, ⟨e, rfl, rfl⟩, by simp⟩
    | abandon i hi w hx =>
      have hdata : w.entries = s.view.world.entries := ((lock config).abandon i s.view _ w hx).2.2
      apply ih
      show s.view.world.entries.contents k = some x
      rw [← hdata]
      exact hk
    | env w hx =>
      apply ih
      have hdata : w.entries = s.view.world.entries := by rw [hx.2]
      show s.view.world.entries.contents k = some x
      rw [← hdata]
      exact hk

/-! ## Pruning

What is expired is decided at one instant for the whole map, and that instant is none the call has
been told or has kept from before: the call reads the clock right before it prunes. -/

/-- The map is pruned at the time the call has just read. -/
def PrunesNow (past : List (Σ o : LockOp U, o.Answer)) : LockOp U → Prop
  | .retain now => ∃ before, past = before ++ [⟨.now, now⟩]
  | _ => True

theorem justified_evict (maxEntries fuel : ℕ) (past : List (Σ o : LockOp U, o.Answer)) :
    Prog.Justified PrunesNow (fun _ _ => True) past (evict maxEntries fuel) := by
  induction fuel generalizing past with
  | zero => exact .ret trivial
  | succ fuel ih =>
    refine .call trivial fun len => ?_
    show Prog.Justified _ _ _ (if maxEntries ≤ len then _ else _)
    split
    · refine .call trivial fun coldest => ?_
      cases coldest with
      | none => exact .ret trivial
      | some k => exact .call trivial fun _ => ih _
    · exact .ret trivial

/-- Making room reads the clock right before it prunes, and prunes at that reading. -/
theorem justified_makeRoom (maxEntries : ℕ) (k : CacheKey)
    (past : List (Σ o : LockOp U, o.Answer)) :
    Prog.Justified PrunesNow (fun _ _ => True) past (makeRoom maxEntries k) := by
  refine .call trivial fun len => ?_
  show Prog.Justified _ _ _ (if maxEntries ≤ len then _ else _)
  split
  · refine .call trivial fun found => ?_
    cases found with
    | true => exact .ret trivial
    | false =>
      exact .call trivial fun now => .call ⟨_, rfl⟩ fun _ => justified_evict maxEntries len _
  · exact .ret trivial

/-- **Every call prunes at the time it has just read**, however its accesses are answered. The
property is one of the call alone, and holds in every interleaving. -/
theorem justified_call (config : CacheConfig) (r : LockedCall U) :
    Prog.Justified PrunesNow (fun _ _ => True) [] (call config r) := by
  cases r with
  | get k =>
    refine .call trivial fun tick => .call trivial fun _ => .call trivial fun hit => ?_
    cases hit with
    | none => exact .call trivial fun _ => .ret trivial
    | some e =>
      refine .call trivial fun now => ?_
      show Prog.Justified _ _ _ ((if now < e.expiresAt then _ else _) >>= _)
      split
      · exact .call trivial fun _ => .call trivial fun _ => .ret trivial
      · exact .call trivial fun _ => .ret trivial
  | insert k value expiresIn =>
    show Prog.Justified _ _ _ (insert config k value expiresIn >>= fun _ => _)
    unfold insert
    split
    · exact .ret trivial
    · unfold store
      simp only [Prog.bind_assoc]
      refine .call trivial fun tick => .call trivial fun _ => ?_
      refine (justified_makeRoom config.maxEntries k _).bind fun past _ _ => ?_
      exact .call trivial fun _ => .call trivial fun _ => .call trivial fun _ => .ret trivial
  | invalidate k =>
    exact .call trivial fun _ => .call trivial fun _ => .call trivial fun _ => .ret trivial
  | len =>
    exact .call trivial fun _ => .call trivial fun _ => .call trivial fun _ => .ret trivial

/-- Who prunes the map has read the clock, and prunes at what it has read: the reading is an event
of the same call, in the past of the pruning. -/
theorem read_of_retain {s : CallState U} (hs : Reachable (machine config) s) {ev : CallEvent U}
    {past : List (CallEvent U)} (hev : Happened s.view.history ev past) {now : Instant}
    (hdid : ev.Did (.retain now) ()) :
    ∃ reading ∈ past, reading.task = ev.task ∧ reading.Did .now now := by
  obtain ⟨before, hlast⟩ := hdid.elim (P := fun op _ => PrunesNow _ op)
    (hs.justified (justified_call config) hev)
  have hmem : (⟨.now, now⟩ : Σ o : LockOp U, o.Answer)
      ∈ (⟨ev.pre, past⟩ : CallView U).trace ev.task := by
    rw [hlast]
    simp
  exact View.mem_trace.mp hmem

/-! ## Panics

There is one place where a call can panic: the addition that computes a deadline. Time only makes an
overflow more certain. -/

/-- The deadline of the call is out of range. -/
def Overflows (config : CacheConfig) (now : Instant) (r : LockedCall U) : Prop :=
  ∃ k value expiresIn, r = .insert k value expiresIn
    ∧ now.checkedAdd (CredentialCache.ttl config expiresIn) = none

/-- A deadline that is out of range stays so as time passes. -/
theorem Overflows.later {now now' : Instant} (h : Overflows config now r) (hle : now ≤ now') :
    Overflows config now' r := by
  obtain ⟨k, value, expiresIn, rfl, hadd⟩ := h
  refine ⟨k, value, expiresIn, rfl, ?_⟩
  cases hadd' : now'.checkedAdd (CredentialCache.ttl config expiresIn) with
  | none => rfl
  | some expiresAt =>
    have hsum := Instant.checkedAdd_eq_some.mp hadd'
    have hmax := expiresAt.lt_max
    have hle' := Instant.le_def.mp hle
    unfold Instant.checkedAdd at hadd
    rw [dif_pos (by omega)] at hadd
    cases hadd

/-- Only time moves the clock: accesses leave it as it is. -/
theorem now_of_exec {w w' : LockWorld U} {o : LockOp U} {a : o.Answer}
    (hx : LockWorld.exec i w o a w') : w'.now = w.now := by
  cases o with
  | put | remove | retain | touch | unread | unwrite =>
    cases hx
    rfl
  | write =>
    obtain ⟨-, -, rfl⟩ := hx
    rfl
  | _ =>
    obtain ⟨-, rfl⟩ := hx
    rfl

theorem now_of_abandon {w w' : LockWorld U} {o : LockOp U} (hx : LockWorld.abandon i w o w') :
    w'.now = w.now := by
  cases o with
  | deadline ttl =>
    obtain ⟨-, rfl⟩ := hx
    rfl
  | _ => exact hx.elim

/-- **A call that has panicked was an insert** whose deadline was out of range, and still is.
Induction on the run. -/
theorem overflows_of_abandoned {s : CallState U} (hs : Reachable (machine config) s)
    (hi : s.tasks i = .abandoned r) : Overflows config s.view.world.now r := by
  induction hs with
  | init w hw => cases hi
  | @step s s' hs hstep ih =>
    cases hstep with
    | spawn j r' hj =>
      by_cases hij : i = j
      · subst hij
        rw [State.move_self] at hi
        cases hi
      · rw [s.move_of_ne _ hij] at hi
        exact ih hi
    | act j hj a w hx =>
      rw [State.move_view, View.after_world, now_of_exec hx]
      by_cases hij : i = j
      · subst hij
        rw [State.move_self] at hi
        cases hi
      · rw [s.move_of_ne _ hij] at hi
        exact ih hi
    | @abandon j r' o next hj w hx =>
      rw [State.move_view, View.withWorld_world, now_of_abandon hx]
      by_cases hij : i = j
      · subst hij
        rw [State.move_self] at hi
        cases hi
        have hlawful : Lawful config r o s.view.world.entries := hs.pre (valid config) hj
        cases o with
        | deadline ttl =>
          obtain ⟨k, value, expiresIn, rfl, rfl⟩ := hlawful
          exact ⟨k, value, expiresIn, rfl, hx.1⟩
        | _ => exact hx.elim
      · rw [s.move_of_ne _ hij] at hi
        exact ih hi
    | env w hx => exact (ih hi).later hx.1

/-! ## A call that nobody disturbs

The sequential model of the cache is what a call does when no other one comes between its accesses.
Each of its parts is run to its end, with the lock held by the one call. -/

/-- What the cache of `Cache.Credential` makes of a call; no reply if it panics. -/
def atomic (c : CredentialCache U) (now : Instant) :
    LockedCall U → Option (LockedReply U) × CredentialCache U
  | .get k => (some (.got (c.get now k).1), (c.get now k).2)
  | .insert k value expiresIn =>
    (if (c.insert now now k value expiresIn).panicked then none else some .done,
      (c.insert now now k value expiresIn).cache)
  | .invalidate k => (some .done, c.invalidate k)
  | .len => (some (.counted c.len), c)

/-- The cache, with nobody at it. -/
def quiet (c : CredentialCache U) (now : Instant) : LockWorld U := ⟨c.entries, c.clock, none, ∅, now⟩

/-- Task `i` comes to this outcome by itself, and leaves `w`. -/
def Ends (config : CacheConfig) (i : ℕ) (r : LockedCall U) (reply : Option (LockedReply U))
    (w : LockWorld U) (v : CallView U) (p : LockProg U (LockedReply U)) : Prop :=
  ∃ v', match reply with
    | some reply => Alone (machine config) i r v p v' (.ret reply) ∧ v'.world = w
    | none => ∃ o k, Alone (machine config) i r v p v' (.call o k) ∧ LockWorld.abandon i v'.world o w

theorem erase_reader (i : ℕ) : (Insert.insert i (∅ : Finset ℕ)).erase i = ∅ :=
  Finset.erase_insert (Finset.notMem_empty i)

section Ends

variable {reply : Option (LockedReply U)} {w w₁ w₂ : LockWorld U}

theorem Ends.act {o : LockOp U} {k : o.Answer → LockProg U (LockedReply U)} (a : o.Answer)
    (hv : v.world = w₁) (hx : LockWorld.exec i w₁ o a w₂)
    (h : ∀ v', v'.world = w₂ → Ends config i r reply w v' (k a)) :
    Ends config i r reply w v (.call o k) := by
  subst hv
  obtain ⟨v', hends⟩ := h (v.after ⟨i, r, o, a, v.world, w₂⟩) rfl
  refine ⟨v', ?_⟩
  cases reply with
  | some reply => exact ⟨.act a w₂ hx hends.1, hends.2⟩
  | none =>
    obtain ⟨o', k', halone, hdrop⟩ := hends
    exact ⟨o', k', .act a w₂ hx halone, hdrop⟩

theorem Ends.ret {reply : LockedReply U} (hv : v.world = w) :
    Ends config i r (some reply) w v (.ret reply) := ⟨v, .refl v _, hv⟩

/-- As many rounds as there are entries are enough, so further fuel makes no difference. -/
theorem evictTo_of_length_le {rank : Entry U → ℕ} {bound fuel : ℕ} {t : Table CacheKey (Entry U)}
    (h : t.entries.length ≤ fuel) :
    Table.evictTo rank bound fuel t = Table.evictTo rank bound t.entries.length t := by
  induction fuel generalizing t with
  | zero => rw [Nat.le_zero.mp h]
  | succ fuel ih =>
    cases hlength : t.entries.length with
    | zero =>
      have hnone : Table.coldest rank t = none :=
        Table.coldest_eq_none_iff.mpr (List.length_eq_zero_iff.mp hlength)
      rw [Table.evictTo, Table.evictTo]
      split
      · rw [hnone]
      · rfl
    | succ n =>
      rw [Table.evictTo, Table.evictTo]
      cases hc : Table.coldest rank t with
      | none => rfl
      | some k =>
        have herase := Table.length_erase (Table.mem_of_coldest hc)
        have hn : (t.erase k).entries.length = n := by omega
        have hsame := ih (t := t.erase k) (by omega)
        rw [hn] at hsame
        simp only [hsame]

/-- **The eviction loop is `evictTo`**, round by round. Induction on the fuel. -/
theorem ends_evict {f : Unit → LockProg U (LockedReply U)} {maxEntries : ℕ} {clock : UInt64}
    {now : Instant} (fuel : ℕ) : ∀ {t : Table CacheKey (Entry U)} {v : CallView U},
      v.world = ⟨t, clock, some i, ∅, now⟩ →
      (∀ v', v'.world = ⟨Table.evictTo (fun e => e.lastUsed.toNat) maxEntries fuel t, clock,
          some i, ∅, now⟩ →
        Ends config i r reply w v' (f ())) →
      Ends config i r reply w v (evict maxEntries fuel >>= f) := by
  induction fuel with
  | zero =>
    intro t v hv hf
    exact hf v hv
  | succ fuel ih =>
    intro t v hv hf
    rw [Table.evictTo] at hf
    refine .act (o := .size) _ hv ⟨rfl, rfl⟩ fun v₁ hv₁ => ?_
    show Ends config i r reply w v₁ ((if maxEntries ≤ t.entries.length then _ else _) >>= f)
    by_cases hfull : maxEntries ≤ t.entries.length
    · rw [if_pos hfull]
      rw [if_pos hfull] at hf
      have hcoldest := coldest_coldest t
      cases hc : Table.coldest (fun e => e.lastUsed.toNat) t with
      | none =>
        rw [hc] at hf hcoldest
        exact .act (o := .coldest) _ hv₁ ⟨hcoldest, rfl⟩ hf
      | some k =>
        rw [hc] at hf hcoldest
        refine .act (o := .coldest) _ hv₁ ⟨hcoldest, rfl⟩ fun v₂ hv₂ => ?_
        exact .act (o := .remove k) () hv₂ rfl fun v₃ hv₃ => ih hv₃ hf
    · rw [if_neg hfull]
      rw [if_neg hfull] at hf
      exact hf v₁ hv₁

/-- Making room is `makeRoom` of the sequential cache, with one reading of the clock. -/
theorem ends_makeRoom {f : Unit → LockProg U (LockedReply U)} {c : CredentialCache U} {k : CacheKey}
    {now : Instant} (hv : v.world = ⟨c.entries, c.clock, some i, ∅, now⟩)
    (hf : ∀ v', v'.world = ⟨if c.config.maxEntries ≤ c.entries.entries.length ∧ k ∉ c.entries then
        c.makeRoom now else c.entries, c.clock, some i, ∅, now⟩ → Ends config i r reply w v' (f ())) :
    Ends config i r reply w v (makeRoom c.config.maxEntries k >>= f) := by
  refine .act (o := .size) _ hv ⟨rfl, rfl⟩ fun v₁ hv₁ => ?_
  show Ends config i r reply w v₁ ((if c.config.maxEntries ≤ c.entries.entries.length then _ else _) >>= f)
  by_cases hfull : c.config.maxEntries ≤ c.entries.entries.length
  · rw [if_pos hfull]
    refine .act (o := .contains k) _ hv₁ ⟨rfl, rfl⟩ fun v₂ hv₂ => ?_
    by_cases hk : k ∈ c.entries
    · rw [if_neg (fun h => h.2 hk)] at hf
      rw [decide_eq_true hk]
      exact hf v₂ hv₂
    · rw [if_pos ⟨hfull, hk⟩] at hf
      rw [decide_eq_false hk]
      refine .act (o := .now) _ hv₂ ⟨rfl, rfl⟩ fun v₃ hv₃ => ?_
      refine .act (o := .retain now) () hv₃ rfl fun v₄ hv₄ => ?_
      refine ends_evict _ hv₄ ?_
      rw [evictTo_of_length_le (Table.length_retain_le _ _)]
      exact hf
  · rw [if_neg hfull]
    rw [if_neg (fun h => hfull h.1)] at hf
    exact hf v₁ hv₁

/-- A lookup is `get` of the sequential cache. -/
theorem ends_get (c : CredentialCache U) (now : Instant) (k : CacheKey) (hv : v.world = quiet c now) :
    Ends config i r (some (.got (c.get now k).1)) (quiet (c.get now k).2 now) v
      (call config (.get k)) := by
  refine .act (o := .tick) _ hv ⟨rfl, rfl⟩ fun v₁ hv₁ => ?_
  refine .act (o := .read) () hv₁ ⟨rfl, rfl⟩ fun v₂ hv₂ => ?_
  have hquiet : ∀ t : Table CacheKey (Entry U),
      (⟨t, c.clock + 1, none, (Insert.insert i ∅ : Finset ℕ).erase i, now⟩ : LockWorld U)
        = ⟨t, c.clock + 1, none, ∅, now⟩ :=
    fun t => by rw [erase_reader]
  cases hk : c.entries.lookup k with
  | none =>
    have hget : c.get now k = (none, c.tick.2) := by
      simp only [CredentialCache.get, CredentialCache.tick, hk, Option.filter_none]
    rw [hget]
    refine .act (o := .find k) none hv₂ ⟨hk.symm, rfl⟩ fun v₃ hv₃ => ?_
    exact .act (o := .unread) () hv₃ rfl fun v₄ hv₄ => .ret (hv₄.trans (hquiet c.entries))
  | some e =>
    refine .act (o := .find k) (some e) hv₂ ⟨hk.symm, rfl⟩ fun v₃ hv₃ => ?_
    refine .act (o := .now) _ hv₃ ⟨rfl, rfl⟩ fun v₄ hv₄ => ?_
    show Ends config i r _ _ v₄ ((if now < e.expiresAt then _ else _) >>= _)
    by_cases hlt : now < e.expiresAt
    · have hget : c.get now k = (some e.value,
          ⟨c.entries.insert k { e with lastUsed := c.clock }, c.config, c.clock + 1⟩) := by
        simp only [CredentialCache.get, CredentialCache.tick, hk, Option.filter, hlt, decide_true, if_true]
      have htouched : LockWorld.touched c.entries k c.clock
          = c.entries.insert k { e with lastUsed := c.clock } := by
        unfold LockWorld.touched
        rw [hk]
      rw [if_pos hlt, hget, ← htouched]
      refine .act (o := .touch k c.clock) () hv₄ rfl fun v₅ hv₅ => ?_
      exact .act (o := .unread) () hv₅ rfl fun v₆ hv₆ => .ret (hv₆.trans (hquiet _))
    · have hget : c.get now k = (none, c.tick.2) := by
        simp only [CredentialCache.get, CredentialCache.tick, hk, Option.filter, hlt, decide_false,
          Bool.false_eq_true, if_false]
      rw [if_neg hlt, hget]
      exact .act (o := .unread) () hv₄ rfl fun v₅ hv₅ => .ret (hv₅.trans (hquiet c.entries))

/-- An insert is `insert` of the sequential cache, including the panic of an overflowing deadline.
-/
theorem ends_insert (c : CredentialCache U) (now : Instant) (k : CacheKey) (value : U)
    (expiresIn : Option Duration) (hv : v.world = quiet c now) :
    Ends c.config i r (atomic c now (.insert k value expiresIn)).1
      (quiet (atomic c now (.insert k value expiresIn)).2 now) v
      (call c.config (.insert k value expiresIn)) := by
  show Ends c.config i r _ _ v (insert c.config k value expiresIn >>= fun _ => _)
  unfold insert atomic CredentialCache.insert CredentialCache.tick
  by_cases hzero : ((CredentialCache.ttl c.config expiresIn).isZero || c.config.maxEntries == 0) = true
  · simp only [hzero, if_true]
    exact .ret hv
  · simp only [hzero, if_false, Bool.false_eq_true]
    unfold store
    simp only [Prog.bind_assoc]
    refine .act (o := .tick) _ hv ⟨rfl, rfl⟩ fun v₁ hv₁ => ?_
    refine .act (o := .write) () hv₁ ⟨rfl, rfl, rfl⟩ fun v₂ hv₂ => ?_
    refine ends_makeRoom (c := { c with clock := c.clock + 1 }) hv₂ fun v₃ hv₃ => ?_
    cases hadd : now.checkedAdd (CredentialCache.ttl c.config expiresIn) with
    | none =>
      refine ⟨v₃, _, _, .refl v₃ _, ?_⟩
      rw [hv₃]
      refine ⟨hadd, ?_⟩
      rw [if_pos rfl, Finset.erase_empty]
      rfl
    | some expiresAt =>
      refine .act (o := .deadline _) _ hv₃ ⟨hadd, rfl⟩ fun v₄ hv₄ => ?_
      refine .act (o := .put k ⟨value, expiresAt, c.clock⟩) () hv₄ rfl fun v₅ hv₅ => ?_
      exact .act (o := .unwrite) () hv₅ rfl fun v₆ hv₆ => .ret hv₆

/-- Every call is the sequential cache's, if nobody disturbs it. -/
theorem ends_call (c : CredentialCache U) (now : Instant) (r : LockedCall U)
    (hv : v.world = quiet c now) :
    Ends c.config i r (atomic c now r).1 (quiet (atomic c now r).2 now) v (call c.config r) := by
  cases r with
  | get k => exact ends_get c now k hv
  | insert k value expiresIn => exact ends_insert c now k value expiresIn hv
  | invalidate k =>
    refine .act (o := .write) () hv ⟨rfl, rfl, rfl⟩ fun v₁ hv₁ => ?_
    refine .act (o := .remove k) () hv₁ rfl fun v₂ hv₂ => ?_
    exact .act (o := .unwrite) () hv₂ rfl fun v₃ hv₃ => .ret hv₃
  | len =>
    refine .act (o := .read) () hv ⟨rfl, rfl⟩ fun v₁ hv₁ => ?_
    refine .act (o := .size) _ hv₁ ⟨rfl, rfl⟩ fun v₂ hv₂ => ?_
    refine .act (o := .unread) () hv₂ rfl fun v₃ hv₃ => .ret ?_
    rw [hv₃]
    exact congrArg (fun readers => LockWorld.mk c.entries c.clock none readers now) (erase_reader i)

end Ends

def ended (r : LockedCall U) :
    Option (LockedReply U) → Status (LockedCall U) (LockOp U) LockOp.Answer (LockedReply U)
  | some reply => .running r (.ret reply)
  | none => .abandoned r

/-- **A call that nobody disturbs does what `Cache.Credential` says**, panics included. It can be
made in any reachable state in which nobody holds the lock, and leaves the other calls where they
are. -/
theorem undisturbed {s : CallState U} (hs : Reachable (machine config) s)
    (hwriter : s.view.world.writer = none) (hreaders : s.view.world.readers = ∅)
    (hi : s.tasks i = .idle) (r : LockedCall U) {reply : Option (LockedReply U)} {c : CredentialCache U}
    (hr : atomic (LockWorld.cache config s.view.world) s.view.world.now r = (reply, c)) :
    ∃ s', Reachable (machine config) s' ∧ s'.view.world = quiet c s.view.world.now
      ∧ (∀ j, j ≠ i → s'.tasks j = s.tasks j)
      ∧ s'.tasks i = ended r reply := by
  have hv : s.view.world = quiet (LockWorld.cache config s.view.world) s.view.world.now := by
    unfold quiet
    rw [← hwriter, ← hreaders]
    rfl
  obtain ⟨v', hends⟩ := ends_call (i := i) (LockWorld.cache config s.view.world) s.view.world.now r hv
  rw [hr] at hends
  cases reply with
  | some reply =>
    obtain ⟨halone, hworld⟩ := hends
    obtain ⟨s', hs', hview, htask, hothers⟩ := hs.submit hi halone
    exact ⟨s', hs', by rw [hview, hworld], hothers, htask⟩
  | none =>
    obtain ⟨o, k, halone, hdrop⟩ := hends
    obtain ⟨s', hs', hview, htask, hothers⟩ := hs.submit hi halone
    rw [← hview] at hdrop
    refine ⟨_, hs'.step (.abandon i htask _ hdrop), rfl, fun j hj => ?_, s'.move_self _ i _⟩
    exact (s'.move_of_ne _ hj _).trans (hothers j hj)

/-! ## Runs

What a caller may count on, whatever the other callers do: each call has one moment at which it
takes effect, and every call can come to its end. -/

/-- What a run of calls keeps to. -/
structure Atomic (config : CacheConfig) (s : CallState U) : Prop where
  bounded : s.view.world.entries.entries.length ≤ config.maxEntries
  /-- Whoever changes the map is its writer, and nobody reads. -/
  alone : ∀ ev ∈ s.view.history, access ev.op = .change →
    ev.pre.writer = some ev.task ∧ ev.pre.readers = ∅
  lawful : ∀ ev ∈ s.view.history, Lawful config ev.req ev.op ev.pre.entries
  /-- What is pruned had expired at a time that the call itself has read. -/
  pruned : ∀ ev past, Happened s.view.history ev past → ∀ now, ev.Did (.retain now) () →
    ∃ reading ∈ past, reading.task = ev.task ∧ reading.Did .now now
  effect : ∀ i r reply, s.Returned i r reply → TakesEffect config s.view i r reply
  /-- What a call finds was put there, and has stood since. -/
  stored : ∀ ev past, Happened s.view.history ev past → ∀ k x, ev.pre.contents k = some x →
    LatestPut past k x
  panicked : ∀ i r, s.tasks i = .abandoned r → Overflows config s.view.world.now r

/-- **In any run each call takes effect at once**, at one of its own accesses. Results, the bound,
the origin of what is served and the panics are all read off the contract's invariant. -/
theorem calls_take_effect {s : CallState U} (hs : Reachable (machine config) s) : Atomic config s where
  bounded := (hs.holds (valid config)).inv.bounded
  alone ev hev hop := by
    obtain ⟨hexcl, mode', hnext⟩ := hs.allowed (lock config) hev
    have hmode : (lock config).mode ev.pre ev.task = .exclusive := by
      rw [show (lock config).access ev.op = .change from hop] at hnext
      cases hmode : (lock config).mode ev.pre ev.task with
      | exclusive => rfl
      | out | shared =>
        rw [hmode] at hnext
        cases hnext
    have hwriter := RwLock.mode_eq_exclusive.mp hmode
    exact ⟨hwriter, hexcl (by rw [hwriter]; exact Option.some_ne_none _)⟩
  lawful := (hs.holds (valid config)).inv.lawful
  pruned ev past hev now hdid := read_of_retain hs hev hdid
  effect i r reply hi := hs.post (valid config) hi
  stored ev past hev k x hk := by
    obtain ⟨s', next, hs', hview, -, -⟩ := hs.before hev
    have hput := latestPut_of_reachable hs' (k := k) (x := x) (by rw [hview]; exact hk)
    rwa [hview] at hput
  panicked i r hi := overflows_of_abandoned hs hi

def abcKey : CacheKey := ⟨none, "api_token", "abc", Vector.replicate 32 0⟩

def abcEntry : Entry ℕ := ⟨7, ⟨30000000000, by decide⟩, 0⟩

/-- The cache once `abc` has been stored. -/
def abcCache : CredentialCache ℕ where
  entries := (∅ : Table CacheKey (Entry ℕ)).insert abcKey abcEntry
  clock := 1

theorem atomic_store_abc :
    atomic (.new {}) ⟨0, Instant.zero_lt_max⟩ (.insert abcKey 7 none) = (some .done, abcCache) := by
  have hinsert : (CredentialCache.new {}).insert ⟨0, Instant.zero_lt_max⟩
      ⟨0, Instant.zero_lt_max⟩ abcKey 7 none = ⟨abcCache, false⟩ :=
    CredentialCache.insert_of_stores ⟨by decide, by decide⟩ (by decide)
  dsimp only [atomic]
  rw [hinsert]
  rfl

theorem atomic_get_abc : atomic abcCache ⟨0, Instant.zero_lt_max⟩ (.get abcKey)
    = (some (.got (some 7)), (abcCache.get ⟨0, Instant.zero_lt_max⟩ abcKey).2) := by
  have hhit : (abcCache.get ⟨0, Instant.zero_lt_max⟩ abcKey).1 = some 7 :=
    CredentialCache.get_eq_some_iff.mpr ⟨abcEntry, AList.lookup_insert _, by decide, rfl⟩
  dsimp only [atomic]
  rw [hhit]

/-- A state in which `abc` has been stored, and nobody is at the cache. -/
theorem abc_stored : ∃ s : CallState ℕ, Reachable (machine {}) s
    ∧ s.view.world = quiet abcCache ⟨0, Instant.zero_lt_max⟩ ∧ ∀ j, j ≠ 0 → s.tasks j = .idle := by
  obtain ⟨s, hs, hworld, hothers, -⟩ := undisturbed (i := 0)
    (.init (M := machine {}) (quiet (.new {}) ⟨0, Instant.zero_lt_max⟩) ⟨rfl, rfl, rfl⟩) rfl rfl rfl
    (.insert abcKey 7 none) atomic_store_abc
  exact ⟨s, hs, hworld, hothers⟩

theorem abc_served : ∃ s : CallState ℕ, Reachable (machine {}) s
    ∧ s.Returned 1 (.get abcKey) (.got (some 7)) ∧ Atomic {} s := by
  obtain ⟨s, hs, hworld, hothers⟩ := abc_stored
  have hget := (congrArg (fun w => atomic (LockWorld.cache {} w) w.now (.get abcKey)) hworld).trans
    atomic_get_abc
  obtain ⟨s', hs', -, -, htask⟩ := undisturbed (i := 1) hs (by rw [hworld]; rfl) (by rw [hworld]; rfl)
    (hothers 1 (by decide)) (.get abcKey) hget
  exact ⟨s', hs', htask, calls_take_effect hs'⟩

/-- **No run gets stuck**: the calls that run can all be brought to their end, by accesses of their
own. One whose deadline is in range returns; the others return or panic. -/
theorem calls_settle {s : CallState U} (hs : Reachable (machine config) s) :
    ∃ s', Relation.ReflTransGen (Own (machine config)) s s'
      ∧ s'.view.world.writer = none ∧ s'.view.world.readers = ∅
      ∧ s'.view.world.now = s.view.world.now
      ∧ ∀ i r p, s.tasks i = .running r p → (∃ reply, s'.Returned i r reply)
        ∨ s'.tasks i = .abandoned r ∧ Overflows config s.view.world.now r := by
  obtain ⟨s', hmoves, hwriter, hreaders, hsettled⟩ := hs.settles (lock config) (serves config)
  have hnow : s'.view.world.now = s.view.world.now := by
    clear hwriter hreaders hsettled
    induction hmoves with
    | refl => rfl
    | tail _ hown ih =>
      cases hown with
      | act i hi a w hx => exact (now_of_exec hx).trans ih
      | abandon i hi w hx => exact (now_of_abandon hx).trans ih
  refine ⟨s', hmoves, hwriter, hreaders, hnow, fun i r p hi => ?_⟩
  rcases hsettled i r p hi with hret | habandoned
  · exact .inl hret
  · refine .inr ⟨habandoned, ?_⟩
    rw [← hnow]
    exact overflows_of_abandoned (hs.own hmoves) habandoned

/-- A reader comes while a writer holds the lock, and both come to their end. -/
theorem abc_settles : ∃ s : CallState ℕ, Reachable (machine {}) s ∧ s.view.world.writer = some 0
    ∧ s.Submitted 1 (.get abcKey)
    ∧ ∃ s', Relation.ReflTransGen (Own (machine {})) s s'
      ∧ s'.view.world.writer = none ∧ s'.view.world.readers = ∅
      ∧ s'.view.world.now = s.view.world.now
      ∧ ∀ i r p, s.tasks i = .running r p → (∃ reply, s'.Returned i r reply)
        ∨ s'.tasks i = .abandoned r ∧ Overflows {} s.view.world.now r := by
  have h₀ : Reachable (machine (U := ℕ) {})
      ⟨⟨quiet (.new {}) ⟨0, Instant.zero_lt_max⟩, []⟩, fun _ => .idle⟩ := .init _ ⟨rfl, rfl, rfl⟩
  have hwrite : Alone (machine (U := ℕ) {}) 0 (.invalidate abcKey)
      ⟨quiet (.new {}) ⟨0, Instant.zero_lt_max⟩, []⟩ (call {} (.invalidate abcKey)) _ _ :=
    .act () _ ⟨rfl, rfl, rfl⟩ (.refl _ _)
  obtain ⟨s₁, hs₁, hview₁, -, hothers₁⟩ := h₀.submit rfl hwrite
  have hs₂ := hs₁.step (.spawn 1 (.get abcKey) (hothers₁ 1 (by decide)))
  refine ⟨_, hs₂, ?_, .inl ⟨_, s₁.move_self _ 1 _⟩, calls_settle hs₂⟩
  rw [State.move_view, hview₁]
  rfl

end LockedCache

end AuthnKit
