import AuthnKit.Cache.Credential
import AuthnKit.Foundation.RwLock

/-!
# AuthnKit — the credential cache under its lock

`src/cache.rs`, with calls interleaved at every access to the lock, the map, the counter and the
clock. A lookup takes the read lock and stores its recency in an atomic; an insert holds the write
lock while it makes room. A lock that a panic has poisoned is used like any other.

* **`LockedCache.call`** — the calls, as they access what they share.
* **`Contents`** — what the map says, recency apart: all that a reader relies on.
* **`Lawful`**, **`TakesEffect`** — which call may come to an access, and where it takes effect.
* **`valid`** — every call keeps to this, whatever the others do.
-/

namespace AuthnKit

open Interleave

variable {U : Type}

inductive LockedCall (U : Type) where
  | get (k : CacheKey)
  | insert (k : CacheKey) (value : U) (expiresIn : Option Duration)
  | invalidate (k : CacheKey)
  | len

inductive LockedReply (U : Type) where
  | got (value : Option U)
  | done
  | counted (n : ℕ)

inductive LockOp (U : Type) where
  | tick
  | read
  | unread
  | write
  | unwrite
  | find (k : CacheKey)
  | now
  | touch (k : CacheKey) (tick : UInt64)
  | size
  | contains (k : CacheKey)
  | retain (now : Instant)
  | coldest
  | remove (k : CacheKey)
  | deadline (ttl : Duration)
  | put (k : CacheKey) (entry : Entry U)

abbrev LockOp.Answer : LockOp U → Type
  | tick => UInt64
  | find _ => Option (Entry U)
  | now | deadline _ => Instant
  | size => ℕ
  | contains _ => Bool
  | coldest => Option CacheKey
  | _ => Unit

abbrev LockProg (U : Type) := Prog (LockOp U) LockOp.Answer

namespace LockedCache

def ask (op : LockOp U) : LockProg U op.Answer := Prog.perform op

/-! ## The calls

Each call as the source has it, one access after the other: taking the lock, looking at the map,
drawing a tick, reading the clock, changing the map, giving the lock back. -/

def get (k : CacheKey) : LockProg U (Option U) := do
  let tick ← ask .tick
  ask .read
  match ← ask (.find k) with
  | none => do
    ask .unread
    return none
  | some entry => do
    let now ← ask .now
    if now < entry.expiresAt then do
      ask (.touch k tick)
      ask .unread
      return some entry.value
    else do
      ask .unread
      return none

/-- Removes the coldest entry while the map is full. `fuel` bounds the rounds; as many as there are
entries are enough. -/
def evict (maxEntries : ℕ) : ℕ → LockProg U Unit
  | 0 => return ()
  | fuel + 1 => do
    let len ← ask .size
    if maxEntries ≤ len then
      match ← ask .coldest with
      | some coldest => do
        ask (.remove coldest)
        evict maxEntries fuel
      | none => return ()
    else return ()

/-- Makes room for `k`, in a map that is full of other keys. -/
def makeRoom (maxEntries : ℕ) (k : CacheKey) : LockProg U Unit := do
  let len ← ask .size
  if maxEntries ≤ len then do
    if ← ask (.contains k) then return ()
    else do
      let now ← ask .now
      ask (.retain now)
      evict maxEntries len
  else return ()

/-- Stores an entry that lives for `ttl`. -/
def store (config : CacheConfig) (k : CacheKey) (value : U) (ttl : Duration) : LockProg U Unit := do
  let tick ← ask .tick
  ask .write
  makeRoom config.maxEntries k
  -- the addition may panic
  let expiresAt ← ask (.deadline ttl)
  ask (.put k ⟨value, expiresAt, tick⟩)
  ask .unwrite

def insert (config : CacheConfig) (k : CacheKey) (value : U) (expiresIn : Option Duration) :
    LockProg U Unit :=
  if (CredentialCache.ttl config expiresIn).isZero || config.maxEntries == 0 then return ()
  else store config k value (CredentialCache.ttl config expiresIn)

def invalidate (k : CacheKey) : LockProg U Unit := do
  ask .write
  ask (.remove k)
  ask .unwrite

def len : LockProg U ℕ := do
  ask .read
  let n ← ask .size
  ask .unread
  return n

def call (config : CacheConfig) : LockedCall U → LockProg U (LockedReply U)
  | .get k => return .got (← get k)
  | .insert k value expiresIn => do
    insert config k value expiresIn
    return .done
  | .invalidate k => do
    invalidate k
    return .done
  | .len => return .counted (← len)

end LockedCache

/-! ## What they share

The map, the counter, the clock, and who holds the lock. Other calls may come between any two
accesses, as far as the lock lets them. -/

structure LockWorld (U : Type) where
  entries : Table CacheKey (Entry U)
  clock : UInt64
  writer : Option ℕ
  readers : Finset ℕ
  now : Instant

/-- What a map says, recency apart. -/
abbrev Contents (U : Type) := CacheKey → Option (U × Instant)

def Table.contents (t : Table CacheKey (Entry U)) : Contents U :=
  fun k => (t.lookup k).map fun e => (e.value, e.expiresAt)

namespace LockWorld

def contents (w : LockWorld U) : Contents U := w.entries.contents

/-- The cache of `Cache.Credential`. -/
def cache (config : CacheConfig) (w : LockWorld U) : CredentialCache U := ⟨w.entries, config, w.clock⟩

/-- An entry is used: a store to an atomic, under the read lock. -/
def touched (t : Table CacheKey (Entry U)) (k : CacheKey) (tick : UInt64) : Table CacheKey (Entry U) :=
  match t.lookup k with
  | some e => t.insert k { e with lastUsed := tick }
  | none => t

/-- No entry is colder. The map may iterate in any order. -/
def Coldest (t : Table CacheKey (Entry U)) : Option CacheKey → Prop
  | none => t.entries = []
  | some k => ∃ e, t.lookup k = some e
      ∧ ∀ k' e', t.lookup k' = some e' → e.lastUsed.toNat ≤ e'.lastUsed.toNat

/-- What an access of task `i` answers and leaves. -/
def exec (i : ℕ) (w : LockWorld U) : (op : LockOp U) → op.Answer → LockWorld U → Prop
  | .tick, tick, w' => tick = w.clock ∧ w' = { w with clock := w.clock + 1 }
  | .read, _, w' => w.writer = none ∧ w' = { w with readers := insert i w.readers }
  | .unread, _, w' => w' = { w with readers := w.readers.erase i }
  | .write, _, w' => w.writer = none ∧ w.readers = ∅ ∧ w' = { w with writer := some i }
  | .unwrite, _, w' => w' = { w with writer := none }
  | .find k, hit, w' => hit = w.entries.lookup k ∧ w' = w
  | .now, now, w' => now = w.now ∧ w' = w
  | .touch k tick, _, w' => w' = { w with entries := touched w.entries k tick }
  | .size, n, w' => n = w.entries.entries.length ∧ w' = w
  | .contains k, found, w' => found = decide (k ∈ w.entries) ∧ w' = w
  | .retain now, _, w' =>
    w' = { w with entries := Table.retain (fun _ e => decide (now < e.expiresAt)) w.entries }
  | .coldest, k, w' => Coldest w.entries k ∧ w' = w
  | .remove k, _, w' => w' = { w with entries := w.entries.erase k }
  | .deadline ttl, expiresAt, w' => w.now.checkedAdd ttl = some expiresAt ∧ w' = w
  | .put k e, _, w' => w' = { w with entries := w.entries.insert k e }

/-- A call is never dropped, but its deadline may be out of range. Unwinding gives the lock back. -/
def abandon (i : ℕ) (w : LockWorld U) : LockOp U → LockWorld U → Prop
  | .deadline ttl, w' => w.now.checkedAdd ttl = none ∧ w' =
      { w with writer := if w.writer = some i then none else w.writer, readers := w.readers.erase i }
  | _, _ => False

/-- Time passes. -/
def elapse (w w' : LockWorld U) : Prop := w.now ≤ w'.now ∧ w' = { w with now := w'.now }

end LockWorld

namespace LockedCache

/-- Calls of one cache, interleaved at every access. -/
def machine (config : CacheConfig) :
    Machine (LockedCall U) (LockOp U) LockOp.Answer (LockWorld U) (LockedReply U) where
  body := call config
  init w := w.entries = ∅ ∧ w.writer = none ∧ w.readers = ∅
  exec i v op a w := LockWorld.exec i v.world op a w
  abandon i v op w := LockWorld.abandon i v.world op w
  env w w' := LockWorld.elapse w w'

/-! ## The lock

The calls are guarded programs over a lock with many readers or one writer, so what a holder may
rely on is an instance of the general rule. -/

/-- A store to an entry's recency changes nothing of what the map says. -/
theorem contents_touched (t : Table CacheKey (Entry U)) (k : CacheKey) (tick : UInt64) :
    (LockWorld.touched t k tick).contents = t.contents := by
  unfold LockWorld.touched
  cases hk : t.lookup k with
  | none => rfl
  | some e =>
    funext k'
    unfold Table.contents
    by_cases hkk : k' = k
    · subst hkk
      rw [AList.lookup_insert, hk]
      rfl
    · rw [AList.lookup_insert_ne hkk]

/-- What an access needs the lock for. -/
def access : LockOp U → LockAccess
  | .tick | .now | .deadline _ => .free
  | .read => .read
  | .unread => .unread
  | .write => .write
  | .unwrite => .unwrite
  | .find _ | .touch _ _ | .size | .contains _ | .coldest => .look
  | .retain _ | .remove _ | .put _ _ => .change

/-- The eviction loop runs under the write lock, and leaves it held. Induction on the fuel. -/
theorem guarded_evict {f : Unit → LockProg U (LockedReply U)} (maxEntries fuel : ℕ)
    (hf : Guarded access .exclusive (f ())) :
    Guarded access .exclusive (evict maxEntries fuel >>= f) := by
  induction fuel with
  | zero => exact hf
  | succ fuel ih =>
    refine .call rfl fun len => ?_
    show Guarded access .exclusive ((if maxEntries ≤ len then _ else _) >>= f)
    split
    · refine .call rfl fun coldest => ?_
      cases coldest with
      | none => exact hf
      | some k => exact .call rfl fun _ => ih
    · exact hf

/-- So does making room: it reads the clock and prunes, and then evicts. -/
theorem guarded_makeRoom {f : Unit → LockProg U (LockedReply U)} (maxEntries : ℕ) (k : CacheKey)
    (hf : Guarded access .exclusive (f ())) :
    Guarded access .exclusive (makeRoom maxEntries k >>= f) := by
  refine .call rfl fun len => ?_
  show Guarded access .exclusive ((if maxEntries ≤ len then _ else _) >>= f)
  split
  · refine .call rfl fun found => ?_
    cases found with
    | true => exact hf
    | false => exact .call rfl fun now => .call rfl fun _ => guarded_evict maxEntries len hf
  · exact hf

/-- Every call takes the lock for what it does with the map, and ends without it. -/
theorem guarded_call (config : CacheConfig) (c : LockedCall U) :
    Guarded access .out (call config c) := by
  cases c with
  | get k =>
    refine .call rfl fun tick => .call rfl fun _ => .call rfl fun hit => ?_
    cases hit with
    | none => exact .call rfl fun _ => .ret _
    | some e =>
      refine .call rfl fun now => ?_
      show Guarded access .shared ((if now < e.expiresAt then _ else _) >>= _)
      split
      · exact .call rfl fun _ => .call rfl fun _ => .ret _
      · exact .call rfl fun _ => .ret _
  | insert k value expiresIn =>
    show Guarded access .out (insert config k value expiresIn >>= fun _ => _)
    unfold insert
    split
    · exact .ret _
    · unfold store
      simp only [Prog.bind_assoc]
      refine .call rfl fun tick => .call rfl fun _ => ?_
      exact guarded_makeRoom config.maxEntries k
        (.call rfl fun _ => .call rfl fun _ => .call rfl fun _ => .ret _)
  | invalidate k => exact .call rfl fun _ => .call rfl fun _ => .call rfl fun _ => .ret _
  | len => exact .call rfl fun _ => .call rfl fun _ => .call rfl fun _ => .ret _

def lock (config : CacheConfig) : RwLock (machine (U := U) config) (Table CacheKey (Entry U)) (Contents U)
    where
  access := access
  writer := LockWorld.writer
  readers := LockWorld.readers
  data := LockWorld.entries
  seen := Table.contents
  init w hw := hw.2
  body := guarded_call config
  exec_read i v op a w hx hop := by
    cases op <;> cases hop
    obtain ⟨hfree, rfl⟩ := hx
    exact ⟨hfree, hfree, rfl, rfl⟩
  exec_unread i v op a w hx hop := by
    cases op <;> cases hop
    cases hx
    exact ⟨rfl, rfl, rfl⟩
  exec_write i v op a w hx hop := by
    cases op <;> cases hop
    obtain ⟨hfree, hnone, rfl⟩ := hx
    exact ⟨hfree, hnone, rfl, hnone, rfl⟩
  exec_unwrite i v op a w hx hop := by
    cases op <;> cases hop
    cases hx
    exact ⟨rfl, rfl, rfl⟩
  exec_free i v op a w hx hop := by
    cases op <;> cases hop <;> (obtain ⟨-, rfl⟩ := hx; exact ⟨rfl, rfl, rfl⟩)
  exec_look i v op a w hx hop := by
    cases op with
    | touch k tick =>
      cases hx
      exact ⟨rfl, rfl, contents_touched _ k tick⟩
    | find | size | contains | coldest =>
      obtain ⟨-, rfl⟩ := hx
      exact ⟨rfl, rfl, rfl⟩
    | _ => cases hop
  exec_change i v op a w hx hop := by
    cases op <;> cases hop <;> (cases hx; exact ⟨rfl, rfl⟩)
  abandon i v op w hx := by
    cases op with
    | deadline ttl =>
      obtain ⟨-, rfl⟩ := hx
      exact ⟨rfl, rfl, rfl⟩
    | _ => exact hx.elim
  env w w' hw := by
    rw [hw.2]
    exact ⟨rfl, rfl, rfl⟩

/-- The coldest entry of a table is one that a search for the coldest may find. -/
theorem coldest_coldest (t : Table CacheKey (Entry U)) :
    LockWorld.Coldest t (Table.coldest (fun e => e.lastUsed.toNat) t) := by
  cases hc : Table.coldest (fun e => e.lastUsed.toNat) t with
  | none => exact Table.coldest_eq_none_iff.mp hc
  | some k => exact Table.coldest_le hc

/-- An access is refused only where the lock is taken: any other one can be answered, or panics
where it computes a deadline. -/
theorem serves (config : CacheConfig) : (lock (U := U) config).Serves := by
  intro i v op hread hwrite
  cases op with
  | read => exact .inl ⟨(), _, hread rfl, rfl⟩
  | write => exact .inl ⟨(), _, (hwrite rfl).1, (hwrite rfl).2, rfl⟩
  | deadline ttl =>
    cases hadd : v.world.now.checkedAdd ttl with
    | none => exact .inr ⟨_, hadd, rfl⟩
    | some expiresAt => exact .inl ⟨expiresAt, _, hadd, rfl⟩
  | tick => exact .inl ⟨_, _, rfl, rfl⟩
  | find k => exact .inl ⟨_, _, rfl, rfl⟩
  | now => exact .inl ⟨_, _, rfl, rfl⟩
  | size => exact .inl ⟨_, _, rfl, rfl⟩
  | contains k => exact .inl ⟨_, _, rfl, rfl⟩
  | coldest => exact .inl ⟨_, _, coldest_coldest _, rfl⟩
  | unread => exact .inl ⟨(), _, rfl⟩
  | unwrite => exact .inl ⟨(), _, rfl⟩
  | touch k tick => exact .inl ⟨(), _, rfl⟩
  | retain now => exact .inl ⟨(), _, rfl⟩
  | remove k => exact .inl ⟨(), _, rfl⟩
  | put k entry => exact .inl ⟨(), _, rfl⟩

/-! ## What a call owes

The contract of the calls. An access is lawful if the call is one that makes it and the map is as it
should be then; in return the map keeps its bound and each call takes effect at one of its accesses.
-/

abbrev CallEvent (U : Type) := Event (LockedCall U) (LockOp U) LockOp.Answer (LockWorld U)

abbrev CallView (U : Type) := View (LockedCall U) (LockOp U) LockOp.Answer (LockWorld U)

/-- `k` finds a map that is full of other keys. -/
def Pressed (config : CacheConfig) (k : CacheKey) (t : Table CacheKey (Entry U)) : Prop :=
  config.maxEntries ≤ t.entries.length ∧ k ∉ t

/-- There is room for `k`. -/
def Room (config : CacheConfig) (k : CacheKey) (t : Table CacheKey (Entry U)) : Prop :=
  k ∈ t ∨ t.entries.length < config.maxEntries

/-- Which call may come to an access, and when. -/
def Lawful (config : CacheConfig) (r : LockedCall U) (op : LockOp U) (t : Table CacheKey (Entry U)) :
    Prop :=
  match op with
  | .put k e => ∃ expiresIn, r = .insert k e.value expiresIn
      ∧ (CredentialCache.ttl config expiresIn).nanos ≠ 0 ∧ config.maxEntries ≠ 0 ∧ Room config k t
  | .remove k => r = .invalidate k
      ∨ ∃ k' value expiresIn, r = .insert k' value expiresIn ∧ Pressed config k' t
        ∧ LockWorld.Coldest t (some k)
  | .retain _ => ∃ k value expiresIn, r = .insert k value expiresIn ∧ Pressed config k t
  | .deadline ttl => ∃ k value expiresIn, r = .insert k value expiresIn
      ∧ ttl = CredentialCache.ttl config expiresIn
  | _ => True

/-- What a lookup is answered by a map that says this, at this time. -/
def served (contents : Contents U) (now : Instant) (k : CacheKey) : Option U :=
  ((contents k).filter fun x => decide (now < x.2)).map (·.1)

/-- The access at which a call takes effect. Nobody writes when a reader's does. -/
def TakesEffect (config : CacheConfig) (v : CallView U) (i : ℕ) : LockedCall U → LockedReply U → Prop
  | .get k, .got value => ∃ ev ∈ v.history, ev.task = i ∧ ev.pre.writer = none
      ∧ value = served ev.pre.contents ev.pre.now k
  | .insert k value expiresIn, .done =>
    ((CredentialCache.ttl config expiresIn).nanos = 0 ∨ config.maxEntries = 0)
      ∨ ∃ ev ∈ v.history, ev.task = i ∧ ∃ e : Entry U, ev.Did (.put k e) () ∧ e.value = value
        ∧ ∃ ev' ∈ v.history, ev'.task = i
          ∧ ev'.Did (.deadline (CredentialCache.ttl config expiresIn)) e.expiresAt
  | .invalidate k, .done => ∃ ev ∈ v.history, ev.task = i ∧ ev.Did (.remove k) ()
  | .len, .counted n => ∃ ev ∈ v.history, ev.task = i ∧ ev.pre.writer = none
      ∧ n = ev.pre.entries.entries.length
  | _, _ => False

/-- The invariant of every run. -/
structure Inv (config : CacheConfig) (v : CallView U) : Prop where
  exclusive : (lock config).Exclusive v.world
  bounded : v.world.entries.entries.length ≤ config.maxEntries
  lawful : ∀ ev ∈ v.history, Lawful config ev.req ev.op ev.pre.entries
  /-- Whoever holds the lock has acquired it. -/
  held : ∀ j, (lock config).mode v.world j ≠ .out → ∃ ev ∈ v.history, ev.task = j

def contract (config : CacheConfig) : Contract (machine (U := U) config) where
  inv := Inv config
  rely i v v' := (lock config).Rely i v.world v'.world
  pre r _ v op := Lawful config r op v.world.entries
  post r i v reply := TakesEffect config v i r reply

variable {config : CacheConfig} {r : LockedCall U} {i : ℕ} {v : CallView U}
  {Q : CallView U → LockedReply U → Prop}

/-- **The map never outgrows its bound**: only a store adds an entry, and a store is lawful where
there is room for its key. -/
theorem length_of_exec {w w' : LockWorld U} {op : LockOp U} {a : op.Answer}
    (hx : LockWorld.exec i w op a w') (hlawful : Lawful config r op w.entries)
    (hbound : w.entries.entries.length ≤ config.maxEntries) :
    w'.entries.entries.length ≤ config.maxEntries := by
  cases op with
  | put k e =>
    cases hx
    obtain ⟨expiresIn, -, -, -, hmem | hroom⟩ := hlawful
    · show (w.entries.insert k e).entries.length ≤ _
      rw [Table.length_insert_of_mem hmem]
      exact hbound
    · show (w.entries.insert k e).entries.length ≤ _
      by_cases hmem : k ∈ w.entries
      · rw [Table.length_insert_of_mem hmem]
        exact hbound
      · rw [Table.length_insert_of_notMem hmem]
        exact hroom
  | remove k =>
    cases hx
    exact (Table.length_erase_le k w.entries).trans hbound
  | retain now =>
    cases hx
    exact (Table.length_retain_le _ w.entries).trans hbound
  | touch k tick =>
    cases hx
    show (LockWorld.touched w.entries k tick).entries.length ≤ _
    unfold LockWorld.touched
    cases hk : w.entries.lookup k with
    | none => exact hbound
    | some e =>
      have hmem : k ∈ w.entries := by
        rw [← AList.lookup_isSome, hk]
        rfl
      show (w.entries.insert k _).entries.length ≤ _
      rw [Table.length_insert_of_mem hmem]
      exact hbound
  | unread | unwrite =>
    cases hx
    exact hbound
  | write =>
    obtain ⟨-, -, rfl⟩ := hx
    exact hbound
  | _ =>
    obtain ⟨-, rfl⟩ := hx
    exact hbound

/-- **The rule for an access.** It is lawful in whatever view the others have left, and the program
is sound from every view it leads to. What the others rely on follows from the lock alone. -/
theorem sound_ask {mode mode' : Mode} {o : LockOp U} {k : o.Answer → LockProg U (LockedReply U)}
    (hmode : (lock config).mode v.world i = mode) (hnext : (access o).next mode = some mode')
    (hlawful : ∀ v', (contract config).Interferes i v v' → Lawful config r o v'.world.entries)
    (hk : ∀ v', (contract config).Interferes i v v' → ∀ a w, LockWorld.exec i v'.world o a w →
      (lock config).mode w i = mode' →
        (contract config).Sound Q r i (v'.after ⟨i, r, o, a, v'.world, w⟩) (k a)) :
    (contract config).Sound Q r i v (.call o k) := by
  intro v' hv'
  have hinv : Inv config v' := hv'.inv
  have hmode' : (lock config).mode v'.world i = mode := (hv'.rely.mode).trans hmode
  refine ⟨hlawful v' hv', ?_, ?_⟩
  · intro a w hx
    have hperf := RwLock.performed_of_exec (X := lock config) hinv.exclusive
      (by rw [hmode']; exact hnext) hx
    refine ⟨⟨⟨hperf.exclusive, length_of_exec hx (hlawful v' hv') hinv.bounded, ?_, ?_⟩, hperf.rely⟩,
      hk v' hv' a w hx hperf.mode⟩
    · intro ev hev
      rcases List.mem_cons.mp hev with rfl | hold
      · exact hlawful v' hv'
      · exact hinv.lawful ev hold
    · intro j hj
      by_cases hji : j = i
      · exact ⟨_, List.mem_cons_self, hji.symm⟩
      · rw [View.after_world, (hperf.rely j hji).mode] at hj
        obtain ⟨ev, hev, htask⟩ := hinv.held j hj
        exact ⟨ev, List.mem_cons_of_mem _ hev, htask⟩
  · intro w hx
    have hperf := RwLock.performed_of_abandon (X := lock config) hinv.exclusive hx
    have hdata := ((lock config).abandon i v' o w hx).2.2
    refine ⟨⟨hperf.exclusive, ?_, hinv.lawful, ?_⟩, hperf.rely⟩
    · show w.entries.entries.length ≤ _
      rw [show w.entries = v'.world.entries from hdata]
      exact hinv.bounded
    · intro j hj
      by_cases hji : j = i
      · rw [View.withWorld_world, hji, hperf.mode] at hj
        exact absurd rfl hj
      · rw [View.withWorld_world, (hperf.rely j hji).mode] at hj
        exact hinv.held j hj

def Later (v v' : CallView U) : Prop := ∀ ev ∈ v.history, ev ∈ v'.history

theorem Later.refl (v : CallView U) : Later v v := fun _ h => h

theorem Later.trans {v v' v'' : CallView U} (h : Later v v') (h' : Later v' v'') : Later v v'' :=
  fun ev hev => h' ev (h ev hev)

theorem later_of_interferes {v' : CallView U} (h : (contract config).Interferes i v v') : Later v v' :=
  fun _ hev => h.others.mem hev

theorem later_after (v : CallView U) (e : CallEvent U) : Later v (v.after e) :=
  fun _ hev => List.mem_cons_of_mem e hev

/-- The rule for a result: what is claimed of it holds however much has happened since. -/
theorem sound_ret {reply : LockedReply U} (h : ∀ v', Later v v' → Q v' reply) :
    (contract config).Sound Q r i v (.ret reply) :=
  fun v' hv' => h v' (later_of_interferes hv')

/-- The last access gives the lock back, and the result stands from before. -/
theorem sound_unread {reply : LockedReply U} (hmode : (lock config).mode v.world i = .shared)
    (h : ∀ v', Later v v' → Q v' reply) :
    (contract config).Sound Q r i v (.call .unread fun _ => .ret reply) :=
  sound_ask hmode rfl (fun _ _ => trivial) fun _ hv' _ _ _ _ => sound_ret fun v'' hv'' =>
    h v'' (((later_of_interferes hv').trans (later_after _ _)).trans hv'')

theorem sound_unwrite {reply : LockedReply U} (hmode : (lock config).mode v.world i = .exclusive)
    (h : ∀ v', Later v v' → Q v' reply) :
    (contract config).Sound Q r i v (.call .unwrite fun _ => .ret reply) :=
  sound_ask hmode rfl (fun _ _ => trivial) fun _ hv' _ _ _ _ => sound_ret fun v'' hv'' =>
    h v'' (((later_of_interferes hv').trans (later_after _ _)).trans hv'')

/-- While somebody reads, nobody writes, so what a reader has found is there until it lets go. -/
theorem unwritten_of_shared {v' : CallView U} (h : (contract config).Interferes i v v')
    (hmode : (lock config).mode v.world i = .shared) : v'.world.writer = none := by
  have hmode' : (lock config).mode v'.world i = .shared := (h.rely.mode).trans hmode
  exact h.inv.exclusive.not_shared (RwLock.mode_eq_shared.mp hmode').2

theorem served_of_none {contents : Contents U} {k : CacheKey} (h : contents k = none) (now : Instant) :
    served contents now k = none := by
  unfold served
  rw [h]
  rfl

/-- Where the map says something, a lookup finds it until its deadline. -/
theorem served_of_some {contents : Contents U} {k : CacheKey} {value : U} {expiresAt : Instant}
    (h : contents k = some (value, expiresAt)) (now : Instant) :
    served contents now k = if now < expiresAt then some value else none := by
  unfold served
  rw [h]
  by_cases hlt : now < expiresAt <;> simp [Option.filter, hlt]

/-- **A lookup takes effect** when it finds nothing, or when it reads the clock: the entry it has
found cannot have gone by then, since it is still a reader. -/
theorem sound_get (k : CacheKey) (hmode : (lock config).mode v.world i = .out) :
    (contract config).Sound (fun v' => TakesEffect config v' i (.get k)) (.get k) i v
      (call config (.get k)) := by
  refine sound_ask (o := .tick) hmode rfl (fun _ _ => trivial) fun v₁ _ tick w₁ _ hmode₁ => ?_
  refine sound_ask (o := .read) hmode₁ rfl (fun _ _ => trivial) fun v₂ _ _ w₂ _ hmode₂ => ?_
  refine sound_ask (o := .find k) hmode₂ rfl (fun _ _ => trivial) fun v₃ hv₃ hit w₃ hx₃ hmode₃ => ?_
  have hfree₃ := unwritten_of_shared hv₃ hmode₂
  obtain ⟨hhit, rfl⟩ := hx₃
  cases hit with
  | none =>
    refine sound_unread hmode₃ fun v' hv' => ?_
    refine ⟨⟨i, .get k, .find k, none, v₃.world, v₃.world⟩, hv' _ List.mem_cons_self, rfl, hfree₃, ?_⟩
    refine (served_of_none ?_ _).symm
    show (v₃.world.entries.lookup k).map _ = none
    rw [← hhit]
    rfl
  | some e =>
    refine sound_ask (o := .now) hmode₃ rfl (fun _ _ => trivial) fun v₄ hv₄ now w₄ hx₄ hmode₄ => ?_
    have hfree₄ := unwritten_of_shared hv₄ hmode₃
    obtain ⟨rfl, rfl⟩ := hx₄
    -- a reader: what it found is still there
    have hfound : v₄.world.contents k = some (e.value, e.expiresAt) := by
      have hsame : v₄.world.contents = v₃.world.contents := hv₄.rely.shared hmode₃
      rw [hsame]
      show (v₃.world.entries.lookup k).map _ = _
      rw [← hhit]
      rfl
    have heffect : ∀ v', Later (v₄.after ⟨i, .get k, .now, v₄.world.now, v₄.world, v₄.world⟩) v' →
        TakesEffect config v' i (.get k)
          (.got (if v₄.world.now < e.expiresAt then some e.value else none)) := by
      intro v' hv'
      exact ⟨_, hv' _ List.mem_cons_self, rfl, hfree₄, (served_of_some hfound _).symm⟩
    by_cases hlt : v₄.world.now < e.expiresAt
    · rw [if_pos hlt] at heffect
      show (contract config).Sound _ _ i _ ((if v₄.world.now < e.expiresAt then _ else _) >>= _)
      rw [if_pos hlt]
      refine sound_ask (o := .touch k tick) hmode₄ rfl (fun _ _ => trivial)
        fun v₅ hv₅ _ w₅ _ hmode₅ => ?_
      exact sound_unread hmode₅ fun v' hv' =>
        heffect v' (((later_of_interferes hv₅).trans (later_after _ _)).trans hv')
    · rw [if_neg hlt] at heffect
      show (contract config).Sound _ _ i _ ((if v₄.world.now < e.expiresAt then _ else _) >>= _)
      rw [if_neg hlt]
      exact sound_unread hmode₄ heffect

/-- The rule for an access of the writer: nobody has moved the map meanwhile, so it is lawful in the
map the writer has seen last. -/
theorem sound_write {o : LockOp U} {k : o.Answer → LockProg U (LockedReply U)}
    (hmode : (lock config).mode v.world i = .exclusive)
    (hnext : (access o).next .exclusive = some .exclusive)
    (hlawful : Lawful config r o v.world.entries)
    (hk : ∀ pre v₁ a, Later v v₁ → ⟨i, r, o, a, pre, v₁.world⟩ ∈ v₁.history →
      pre.entries = v.world.entries → LockWorld.exec i pre o a v₁.world →
      (lock config).mode v₁.world i = .exclusive → (contract config).Sound Q r i v₁ (k a)) :
    (contract config).Sound Q r i v (.call o k) := by
  have hsame : ∀ v', (contract config).Interferes i v v' → v'.world.entries = v.world.entries :=
    fun v' hv' => hv'.rely.exclusive hmode
  refine sound_ask hmode hnext ?_ fun v' hv' a w hx hmode' => ?_
  · intro v' hv'
    rw [hsame v' hv']
    exact hlawful
  · exact hk v'.world _ a ((later_of_interferes hv').trans (later_after _ _)) List.mem_cons_self
      (hsame v' hv') hx hmode'

/-- **The eviction loop makes room.** Induction on the fuel, of which there is one for each entry:
every round that goes on removes an entry, and the loop ends where there is room. -/
theorem sound_evict {k : CacheKey} {value : U} {expiresIn : Option Duration}
    (hr : r = .insert k value expiresIn) (hmax : config.maxEntries ≠ 0)
    {f : Unit → LockProg U (LockedReply U)} (fuel : ℕ) :
    ∀ {v : CallView U}, (lock config).mode v.world i = .exclusive →
      v.world.entries.entries.length ≤ fuel → k ∉ v.world.entries →
      (∀ v', Later v v' → (lock config).mode v'.world i = .exclusive →
        Room config k v'.world.entries → (contract config).Sound Q r i v' (f ())) →
      (contract config).Sound Q r i v (evict config.maxEntries fuel >>= f) := by
  induction fuel with
  | zero =>
    intro v hmode hfuel _ hf
    exact hf v (.refl v) hmode (.inr (by omega))
  | succ fuel ih =>
    intro v hmode hfuel hk hf
    refine sound_write (o := .size) hmode rfl trivial fun pre v₁ len hv₁ _ hpre hx₁ hmode₁ => ?_
    obtain ⟨rfl, hw₁⟩ := hx₁
    have hentries₁ : v₁.world.entries = v.world.entries := by rw [hw₁, hpre]
    show (contract config).Sound _ _ i _ ((if config.maxEntries ≤ _ then _ else _) >>= f)
    rw [hpre]
    by_cases hfull : config.maxEntries ≤ v.world.entries.entries.length
    · rw [if_pos hfull]
      refine sound_write (o := .coldest) hmode₁ rfl trivial
        fun pre v₂ coldest hv₂ _ hpre₂ hx₂ hmode₂ => ?_
      obtain ⟨hcoldest, hw₂⟩ := hx₂
      rw [hpre₂, hentries₁] at hcoldest
      have hentries₂ : v₂.world.entries = v.world.entries := by rw [hw₂, hpre₂, hentries₁]
      cases coldest with
      | none =>
        -- a full map is not empty
        have hnil : v.world.entries.entries = [] := hcoldest
        rw [hnil] at hfull
        exact absurd (Nat.le_zero.mp hfull) hmax
      | some c =>
        obtain ⟨e, he, -⟩ := id hcoldest
        have hmem : c ∈ v.world.entries := by
          rw [← AList.lookup_isSome, he]
          rfl
        have hlawful : Lawful config r (.remove c) v₂.world.entries := by
          rw [hentries₂]
          exact .inr ⟨k, value, expiresIn, hr, ⟨hfull, hk⟩, hcoldest⟩
        refine sound_write (o := .remove c) hmode₂ rfl hlawful
          fun pre v₃ _ hv₃ _ hpre₃ hx₃ hmode₃ => ?_
        have hentries₃ : v₃.world.entries = v.world.entries.erase c := by
          rw [show v₃.world = _ from hx₃, hpre₃, hentries₂]
        apply ih hmode₃
        · have hlength := Table.length_erase hmem
          rw [hentries₃]
          omega
        · rw [hentries₃, AList.mem_erase]
          exact fun h => hk h.2
        · exact fun v' hv' => hf v' (((hv₁.trans hv₂).trans hv₃).trans hv')
    · rw [if_neg hfull]
      exact hf v₁ hv₁ hmode₁ (.inr (by rw [hentries₁]; omega))

/-- **There is room for the key afterwards**, whether it was there, the map had room, or entries
went. -/
theorem sound_makeRoom {k : CacheKey} {value : U} {expiresIn : Option Duration}
    (hr : r = .insert k value expiresIn) (hmax : config.maxEntries ≠ 0)
    {f : Unit → LockProg U (LockedReply U)} (hmode : (lock config).mode v.world i = .exclusive)
    (hf : ∀ v', Later v v' → (lock config).mode v'.world i = .exclusive →
      Room config k v'.world.entries → (contract config).Sound Q r i v' (f ())) :
    (contract config).Sound Q r i v (makeRoom config.maxEntries k >>= f) := by
  refine sound_write (o := .size) hmode rfl trivial fun pre v₁ len hv₁ _ hpre hx₁ hmode₁ => ?_
  obtain ⟨rfl, hw₁⟩ := hx₁
  have hentries₁ : v₁.world.entries = v.world.entries := by rw [hw₁, hpre]
  show (contract config).Sound _ _ i _ ((if config.maxEntries ≤ _ then _ else _) >>= f)
  rw [hpre]
  by_cases hfull : config.maxEntries ≤ v.world.entries.entries.length
  · rw [if_pos hfull]
    refine sound_write (o := .contains k) hmode₁ rfl trivial
      fun pre v₂ found hv₂ _ hpre₂ hx₂ hmode₂ => ?_
    obtain ⟨rfl, hw₂⟩ := hx₂
    rw [hpre₂, hentries₁]
    have hentries₂ : v₂.world.entries = v.world.entries := by rw [hw₂, hpre₂, hentries₁]
    by_cases hk : k ∈ v.world.entries
    · rw [decide_eq_true hk]
      exact hf v₂ (hv₁.trans hv₂) hmode₂ (.inl (by rw [hentries₂]; exact hk))
    · rw [decide_eq_false hk]
      refine sound_write (o := .now) hmode₂ rfl trivial
        fun pre v₃ now hv₃ _ hpre₃ hx₃ hmode₃ => ?_
      have hentries₃ : v₃.world.entries = v.world.entries := by rw [hx₃.2, hpre₃, hentries₂]
      have hlawful : Lawful config r (.retain now) v₃.world.entries := by
        rw [hentries₃]
        exact ⟨k, value, expiresIn, hr, hfull, hk⟩
      refine sound_write (o := .retain now) hmode₃ rfl hlawful
        fun pre v₄ _ hv₄ _ hpre₄ hx₄ hmode₄ => ?_
      have hentries₄ : v₄.world.entries
          = Table.retain (fun _ e => decide (now < e.expiresAt)) v.world.entries := by
        rw [show v₄.world = _ from hx₄, hpre₄, hentries₃]
      apply sound_evict hr hmax _ hmode₄
      · rw [hentries₄]
        exact Table.length_retain_le _ _
      · rw [hentries₄, ← AList.lookup_isSome, Table.lookup_retain, AList.lookup_eq_none.mpr hk]
        simp
      · exact fun v' hv' => hf v' ((((hv₁.trans hv₂).trans hv₃).trans hv₄).trans hv')
  · rw [if_neg hfull]
    exact hf v₁ hv₁ hmode₁ (.inr (by rw [hentries₁]; omega))

/-- An insert takes effect when it stores its entry, and an insert that returns early does so at
once. -/
theorem sound_insert (k : CacheKey) (value : U) (expiresIn : Option Duration)
    (hmode : (lock config).mode v.world i = .out) :
    (contract config).Sound (fun v' => TakesEffect config v' i (.insert k value expiresIn))
      (.insert k value expiresIn) i v (call config (.insert k value expiresIn)) := by
  show (contract config).Sound _ _ i v (insert config k value expiresIn >>= fun _ => _)
  unfold insert
  by_cases hzero : ((CredentialCache.ttl config expiresIn).isZero || config.maxEntries == 0) = true
  · rw [if_pos hzero]
    refine sound_ret fun v' _ => .inl ?_
    simpa using hzero
  · rw [if_neg hzero]
    simp only [Bool.or_eq_true, Duration.isZero_iff, beq_iff_eq, not_or] at hzero
    obtain ⟨httl, hmax⟩ := hzero
    unfold store
    simp only [Prog.bind_assoc]
    refine sound_ask (o := .tick) hmode rfl (fun _ _ => trivial) fun v₁ _ tick w₁ _ hmode₁ => ?_
    refine sound_ask (o := .write) hmode₁ rfl (fun _ _ => trivial) fun v₂ _ _ w₂ _ hmode₂ => ?_
    refine sound_makeRoom rfl hmax hmode₂ fun v₃ _ hmode₃ hroom => ?_
    refine sound_write (o := .deadline _) hmode₃ rfl ⟨k, value, expiresIn, rfl, rfl⟩
      fun pre v₄ expiresAt _ hdeadline hpre hx₄ hmode₄ => ?_
    have hlawful : Lawful config (.insert k value expiresIn) (.put k ⟨value, expiresAt, tick⟩)
        v₄.world.entries := by
      rw [hx₄.2, hpre]
      exact ⟨expiresIn, rfl, httl, hmax, hroom⟩
    refine sound_write (o := .put k ⟨value, expiresAt, tick⟩) hmode₄ rfl hlawful
      fun pre₅ v₅ _ hv₅ hput _ _ hmode₅ => ?_
    refine sound_unwrite hmode₅ fun v' hv' => ?_
    exact .inr ⟨_, hv' _ hput, rfl, ⟨value, expiresAt, tick⟩, rfl, rfl, _,
      hv' _ (hv₅ _ hdeadline), rfl, rfl⟩

theorem sound_invalidate (k : CacheKey) (hmode : (lock config).mode v.world i = .out) :
    (contract config).Sound (fun v' => TakesEffect config v' i (.invalidate k)) (.invalidate k) i v
      (call config (.invalidate k)) := by
  refine sound_ask (o := .write) hmode rfl (fun _ _ => trivial) fun v₁ _ _ w₁ _ hmode₁ => ?_
  refine sound_write (o := .remove k) hmode₁ rfl (.inl rfl) fun pre v₂ _ _ hremove _ _ hmode₂ => ?_
  exact sound_unwrite hmode₂ fun v' hv' => ⟨_, hv' _ hremove, rfl, rfl⟩

/-- Counting the entries takes effect when they are counted, under the lock. -/
theorem sound_len (hmode : (lock config).mode v.world i = .out) :
    (contract config).Sound (fun v' => TakesEffect config v' i .len) .len i v
      (call config .len) := by
  refine sound_ask (o := .read) hmode rfl (fun _ _ => trivial) fun v₁ _ _ w₁ _ hmode₁ => ?_
  refine sound_ask (o := .size) hmode₁ rfl (fun _ _ => trivial) fun v₂ hv₂ n w₂ hx hmode₂ => ?_
  exact sound_unread hmode₂ fun v' hv' =>
    ⟨_, hv' _ List.mem_cons_self, rfl, unwritten_of_shared hv₂ hmode₁, hx.1⟩

/-- **The contract holds of the calls**: every call is sound, and what they rely on is what the lock
lets the others do. -/
theorem valid (config : CacheConfig) : (contract (U := U) config).Valid where
  refl i v := .refl i _
  trans i v₁ v₂ v₃ h h' := RwLock.Rely.trans h h'
  init w hw := by
    refine ⟨fun hne => absurd hw.2.1 hne, ?_, by simp, fun j hj => ?_⟩
    · show w.entries.entries.length ≤ _
      rw [hw.1]
      exact Nat.zero_le _
    · refine absurd (RwLock.mode_eq_out.mpr ⟨?_, ?_⟩) hj
      · show w.writer ≠ some j
        rw [hw.2.1]
        exact (Option.some_ne_none j).symm
      · show j ∉ w.readers
        rw [hw.2.2]
        exact Finset.notMem_empty j
  env v w hv hw := by
    obtain ⟨hexcl, hbound, hlawful, hheld⟩ := hv
    have hrely := RwLock.rely_of_env (X := lock config) hw
    refine ⟨⟨?_, ?_, hlawful, fun j hj => ?_⟩, hrely⟩
    · obtain ⟨hwriter, hreaders, -⟩ := (lock config).env _ w hw
      intro hne
      rw [View.withWorld_world, hreaders]
      exact hexcl (by rwa [View.withWorld_world, hwriter] at hne)
    · show w.entries.entries.length ≤ _
      rw [show w.entries = v.world.entries by rw [hw.2]]
      exact hbound
    · rw [View.withWorld_world, (hrely j).mode] at hj
      exact hheld j hj
  spawn r i v hv hfresh := by
    have hmode : (lock config).mode v.world i = .out := by
      by_contra hne
      obtain ⟨ev, hev, htask⟩ := hv.held i hne
      exact hfresh ev hev htask
    cases r with
    | get k => exact sound_get k hmode
    | insert k value expiresIn => exact sound_insert k value expiresIn hmode
    | invalidate k => exact sound_invalidate k hmode
    | len => exact sound_len hmode

end LockedCache

end AuthnKit
