import AuthnKit.Cache.Credential

/-!
# AuthnKit — histories of a credential cache

A cache that is used sequentially: lookups, inserts and invalidations at non-decreasing times,
each executed without interruption. A history lists them, the newest first.

* **`after`** — the cache a history leaves.
* **`standing`** — what a cache without bound or clock would hold: the last write of a key that
  was not invalidated since.
* **`lookup_standing`** — every entry of the real cache stands.
* **`lookup_of_standing`** — what stands is in the real cache until it expires or is evicted.
-/

namespace AuthnKit

variable {K K' U : Type}

/-! ## Accesses -/

inductive CacheCall (K U : Type) where
  | get (k : K)
  /-- `finish` is the reading of the clock the deadline is computed from. -/
  | insert (k : K) (value : U) (expiresIn : Option Duration) (finish : Instant)
  | invalidate (k : K)

/-- A call, and the first reading of the clock it takes. -/
structure Access (K U : Type) where
  start : Instant
  call : CacheCall K U

/-- The newest access comes first. -/
abbrev History (K U : Type) := List (Access K U)

namespace Access

def finish (a : Access K U) : Instant :=
  match a.call with
  | .insert _ _ _ finish => finish
  | _ => a.start

def key (a : Access K U) : K :=
  match a.call with
  | .get k => k
  | .insert k _ _ _ => k
  | .invalidate k => k

/-- The same access, with its key taken from another type. -/
def map (f : K → K') (a : Access K U) : Access K' U where
  start := a.start
  call := match a.call with
    | .get k => .get (f k)
    | .insert k value expiresIn finish => .insert (f k) value expiresIn finish
    | .invalidate k => .invalidate (f k)

def apply (a : Access CacheKey U) (c : CredentialCache U) : CredentialCache U :=
  match a.call with
  | .get k => (c.get a.start k).2
  | .insert k value expiresIn finish => (c.insert a.start finish k value expiresIn).cache
  | .invalidate k => c.invalidate k

/-- The access decides what is stored under the key: it stores a value, or drops it. -/
def Overwrites (config : CacheConfig) (k : K) (a : Access K U) : Prop :=
  match a.call with
  | .get _ => False
  | .insert k' _ expiresIn _ => k' = k ∧ CredentialCache.Stores config expiresIn
  | .invalidate k' => k' = k

instance [DecidableEq K] (config : CacheConfig) (k : K) (a : Access K U) :
    Decidable (a.Overwrites config k) := by
  unfold Overwrites
  split <;> infer_instance

/-- What an access stores: the value, the lifetime asked for, and when. -/
def stored (a : Access K U) : Option (U × Option Duration × Instant) :=
  match a.call with
  | .insert _ value expiresIn finish => some (value, expiresIn, finish)
  | _ => none

/-- No deadline overflows the clock. -/
def Fits (config : CacheConfig) (a : Access K U) : Prop :=
  match a.call with
  | .insert _ _ expiresIn finish =>
    ∃ deadline, finish.checkedAdd (CredentialCache.ttl config expiresIn) = some deadline
  | _ => True

end Access

namespace History

/-- The accesses happened one after the other, before `now`. -/
def Timed : History K U → Instant → Prop
  | [], _ => True
  | a :: past, now => a.finish ≤ now ∧ a.start ≤ a.finish ∧ Timed past a.start

def after (config : CacheConfig) : History CacheKey U → CredentialCache U
  | [] => .new config
  | a :: past => a.apply (after config past)

/-- **Nothing but time and the capacity bound decides**: the last value stored under a key, if it
was not invalidated since. -/
def standing [DecidableEq K] (config : CacheConfig) (k : K) :
    History K U → Option (U × Option Duration × Instant)
  | [] => none
  | a :: past => if a.Overwrites config k then a.stored else standing config k past

/-- The configuration of a cache is the one it was made with, whatever it was asked to do since. -/
@[simp] theorem after_config (config : CacheConfig) (past : History CacheKey U) :
    (after config past).config = config := by
  induction past with
  | nil => rfl
  | cons a past ih =>
    rw [after]
    unfold Access.apply
    split
    · rw [CredentialCache.get_config, ih]
    · rw [CredentialCache.insert_config, ih]
    · exact ih

/-- Within a timed history everything started by then, as each access started after the one before
it had finished. -/
theorem Timed.start_le {past : History K U} {now : Instant} (h : Timed past now) :
    ∀ a ∈ past, a.start ≤ now := by
  induction past generalizing now with
  | nil => simp
  | cons a past ih =>
    obtain ⟨hfinish, hstart, hpast⟩ := h
    intro b hb
    have ha : a.start ≤ now := Nat.le_trans hstart hfinish
    rcases List.mem_cons.mp hb with rfl | hb
    · exact ha
    · exact Nat.le_trans (ih hpast b hb) ha

/-! ## Keys of another type

A history may be written with keys of any type, such as the parts a caller builds a key from. As
long as keys stay apart under the map, the same value stands. -/

section Map

variable {f : K → K'} {a : Access K U}

@[simp] theorem key_map : (a.map f).key = f a.key := by
  obtain ⟨start, call⟩ := a
  cases call <;> rfl

@[simp] theorem stored_map : (a.map f).stored = a.stored := by
  obtain ⟨start, call⟩ := a
  cases call <;> rfl

theorem fits_map {config : CacheConfig} : (a.map f).Fits config ↔ a.Fits config := by
  obtain ⟨start, call⟩ := a
  cases call <;> exact Iff.rfl

/-- Whether an access decides about a key does not depend on how keys are represented, if the two
keys in question stay apart. -/
theorem overwrites_map {config : CacheConfig} {k : K} (hinj : f a.key = f k → a.key = k) :
    (a.map f).Overwrites config (f k) ↔ a.Overwrites config k := by
  obtain ⟨start, call⟩ := a
  cases call with
  | get k' => exact Iff.rfl
  | insert k' value expiresIn finish =>
    exact and_congr_left fun _ => ⟨hinj, congrArg f⟩
  | invalidate k' => exact ⟨hinj, congrArg f⟩

/-- What stands does not depend on how keys are represented, as long as they stay apart. Induction
on the history. -/
theorem standing_map [DecidableEq K] [DecidableEq K'] {config : CacheConfig} {k : K}
    {past : History K U} (hinj : ∀ a ∈ past, f a.key = f k → a.key = k) :
    standing config (f k) (past.map (Access.map f)) = standing config k past := by
  induction past with
  | nil => rfl
  | cons a past ih =>
    have hover : (a.map f).Overwrites config (f k) ↔ a.Overwrites config k :=
      overwrites_map (hinj a List.mem_cons_self)
    rw [List.map_cons, standing, standing, stored_map,
      ih fun b hb => hinj b (List.mem_cons_of_mem a hb)]
    exact if_congr hover rfl rfl

end Map

/-! ## The write a value stands from

What stands is computed by going back through the history. It is the same to point at a write and to
say that nothing was decided about the key since. -/

/-- The value was stored under `k` by an insert of the history, and nothing about `k` was decided
since. -/
def LastWrite (config : CacheConfig) (k : K) (past : History K U) (value : U)
    (expiresIn : Option Duration) (finish : Instant) : Prop :=
  ∃ later start earlier, past = later ++ ⟨start, .insert k value expiresIn finish⟩ :: earlier
    ∧ CredentialCache.Stores config expiresIn ∧ ∀ a ∈ later, ¬ a.Overwrites config k

section LastWrite

variable {config : CacheConfig} {k : K} {past : History K U} {a : Access K U} {value : U}
  {expiresIn : Option Duration} {finish : Instant}

theorem not_lastWrite_nil : ¬ LastWrite config k ([] : History K U) value expiresIn finish := by
  intro ⟨later, start, earlier, hpast, _⟩
  cases later <;> exact absurd hpast (by simp)

/-- An access that decides nothing about the key leaves the last write what it was. -/
theorem lastWrite_cons_of_not (h : ¬ a.Overwrites config k) :
    LastWrite config k (a :: past) value expiresIn finish
      ↔ LastWrite config k past value expiresIn finish := by
  constructor
  · intro ⟨later, start, earlier, hpast, hstores, hlater⟩
    cases later with
    | nil =>
      obtain ⟨rfl, _⟩ := List.cons.inj hpast
      exact absurd ⟨rfl, hstores⟩ h
    | cons b later =>
      obtain ⟨_, hrest⟩ := List.cons.inj hpast
      exact ⟨later, start, earlier, hrest, hstores, fun x hx =>
        hlater x (List.mem_cons_of_mem b hx)⟩
  · intro ⟨later, start, earlier, hpast, hstores, hlater⟩
    refine ⟨a :: later, start, earlier, by rw [hpast]; rfl, hstores, ?_⟩
    intro b hb
    rcases List.mem_cons.mp hb with rfl | hb
    · exact h
    · exact hlater b hb

/-- One that decides is the last write itself, if it is a write at all and not an invalidation. -/
theorem lastWrite_cons_of_overwrites (h : a.Overwrites config k) :
    LastWrite config k (a :: past) value expiresIn finish
      ↔ a.call = .insert k value expiresIn finish := by
  constructor
  · intro ⟨later, start, earlier, hpast, _, hlater⟩
    cases later with
    | nil =>
      obtain ⟨rfl, _⟩ := List.cons.inj hpast
      rfl
    | cons b later =>
      obtain ⟨rfl, _⟩ := List.cons.inj hpast
      exact absurd h (hlater a List.mem_cons_self)
  · intro hcall
    have hstores : CredentialCache.Stores config expiresIn := by
      unfold Access.Overwrites at h
      rw [hcall] at h
      exact h.2
    refine ⟨[], a.start, past, ?_, hstores, by simp⟩
    rw [← hcall]
    rfl

/-- **What stands is the last write**: its value, the lifetime it asked for and its time. Induction
on the history. -/
theorem standing_eq_some_iff [DecidableEq K] :
    standing config k past = some (value, expiresIn, finish)
      ↔ LastWrite config k past value expiresIn finish := by
  induction past with
  | nil => simp [standing, not_lastWrite_nil]
  | cons a past ih =>
    rw [standing]
    by_cases hover : a.Overwrites config k
    · rw [if_pos hover, lastWrite_cons_of_overwrites hover]
      obtain ⟨start, call⟩ := a
      cases call with
      | get k' => exact absurd hover id
      | insert k' value' expiresIn' finish' => simp [Access.stored, hover.1]
      | invalidate k' => simp [Access.stored]
    · rw [if_neg hover, lastWrite_cons_of_not hover, ih]

end LastWrite

/-! ## The real cache holds what stands

The cache forgets: entries expire, are pruned and evicted. What it does say of a key is what stands,
and what stands and is missing was evicted. -/

variable {config : CacheConfig} {past : History CacheKey U} {k : CacheKey}

def deadline (config : CacheConfig) (expiresIn : Option Duration) (finish : Instant) : ℕ :=
  finish.nanos + (CredentialCache.ttl config expiresIn).nanos

/-- The cache an insert stores into, and the one it leaves: the equation of the operation, for an
access. -/
theorem apply_insert {c : CredentialCache U} {start finish at' : Instant} {value : U}
    {expiresIn : Option Duration} (hstores : CredentialCache.Stores c.config expiresIn)
    (hadd : finish.checkedAdd (CredentialCache.ttl c.config expiresIn) = some at') :
    Access.apply ⟨start, .insert k value expiresIn finish⟩ c
      = { c with entries := (c.roomFor start k).insert k ⟨value, at', c.clock⟩
                 clock := c.clock + 1 } := by
  show (c.insert start finish k value expiresIn).cache = _
  rw [CredentialCache.insert_of_stores hstores hadd]

theorem apply_insert_of_not {c : CredentialCache U} {start finish : Instant} {value : U}
    {expiresIn : Option Duration} (hstores : ¬ CredentialCache.Stores c.config expiresIn) :
    Access.apply ⟨start, .insert k value expiresIn finish⟩ c = c := by
  show (c.insert start finish k value expiresIn).cache = _
  rw [CredentialCache.insert_of_not_stores hstores]

/-- An access that decides nothing about a key only keeps or drops its entry; a hit may change its
recency. -/
theorem lookup_of_not_overwrites {c : CredentialCache U} {a : Access CacheKey U} {e : Entry U}
    (hover : ¬ a.Overwrites c.config k) (h : (a.apply c).entries.lookup k = some e) :
    ∃ e', c.entries.lookup k = some e' ∧ e.SameAs e' := by
  obtain ⟨start, call⟩ := a
  cases call with
  | get k' => exact CredentialCache.get_entries h
  | insert k' value expiresIn finish =>
    rcases CredentialCache.insert_entries h with hold | ⟨rfl, _, _, hstores⟩
    · exact ⟨e, hold, rfl, rfl⟩
    · exact absurd ⟨rfl, hstores⟩ hover
  | invalidate k' => exact ⟨e, Table.erase_le k' c.entries k e h, rfl, rfl⟩

/-- **Every entry stands**, with its deadline. Induction on the history: an access that decides
about the key replaces its entry, and the others only keep or drop it. -/
theorem lookup_standing {e : Entry U} (hfits : ∀ a ∈ past, a.Fits config)
    (h : (after config past).entries.lookup k = some e) :
    ∃ expiresIn finish, standing config k past = some (e.value, expiresIn, finish)
      ∧ e.expiresAt.nanos = deadline config expiresIn finish := by
  induction past generalizing e with
  | nil => exact absurd h (by simp [after, CredentialCache.new])
  | cons a past ih =>
    have hpast : ∀ b ∈ past, b.Fits config := fun b hb => hfits b (List.mem_cons_of_mem a hb)
    rw [standing]
    by_cases hover : a.Overwrites config k
    · rw [if_pos hover]
      obtain ⟨start, call⟩ := a
      cases call with
      | get k' => exact absurd hover id
      | insert k' value expiresIn finish =>
        obtain ⟨rfl, hstores⟩ := hover
        obtain ⟨at', hadd⟩ := hfits _ List.mem_cons_self
        rw [← after_config config past] at hstores hadd
        rw [after, apply_insert hstores hadd, AList.lookup_insert] at h
        rw [← Option.some.inj h]
        refine ⟨expiresIn, finish, rfl, ?_⟩
        rw [after_config] at hadd
        exact Instant.checkedAdd_eq_some.mp hadd
      | invalidate k' =>
        have hk : k' = k := hover
        subst hk
        exact absurd h (by simp [after, Access.apply, CredentialCache.invalidate])
    · rw [if_neg hover]
      have hover' : ¬ a.Overwrites (after config past).config k := by rwa [after_config]
      obtain ⟨e', he', hvalue, hexpires⟩ := lookup_of_not_overwrites hover' h
      rw [hvalue, hexpires]
      exact ih hpast he'

/-- An insert of another key removes the entry of `k` while the cache is at capacity. -/
structure EvictedBy (config : CacheConfig) (k : CacheKey) (a : Access CacheKey U)
    (past : History CacheKey U) : Prop where
  present : k ∈ (after config past).entries
  absent : k ∉ (after config (a :: past)).entries
  full : config.maxEntries ≤ (after config past).len
  other : a.key ≠ k
  stores : a.stored ≠ none

/-- **An entry goes by being overwritten, or by an eviction**: where an access takes it away and
decides nothing about its key, it is an insert of another key that found the cache full. -/
theorem evictedBy_of_absent {a : Access CacheKey U} (hfits : a.Fits config)
    (hover : ¬ a.Overwrites config k) (hpresent : k ∈ (after config past).entries)
    (habsent : k ∉ (after config (a :: past)).entries) : EvictedBy config k a past := by
  rw [after] at habsent
  obtain ⟨start, call⟩ := a
  cases call with
  | get k' => exact absurd (CredentialCache.mem_get_iff.mpr hpresent) habsent
  | insert k' value expiresIn finish =>
    by_cases hstores : CredentialCache.Stores config expiresIn
    · have hk : k' ≠ k := fun hk => hover ⟨hk, hstores⟩
      obtain ⟨at', hadd⟩ := hfits
      rw [← after_config config past] at hstores hadd
      refine ⟨hpresent, habsent, ?_, hk, by simp [Access.stored]⟩
      -- with room to spare the map is only added to
      by_contra hroom
      rw [apply_insert hstores hadd] at habsent
      have hkeep : (after config past).roomFor start k' = (after config past).entries := by
        unfold CredentialCache.roomFor
        rw [after_config, if_neg fun h => hroom h.1]
      apply habsent
      show k ∈ ((after config past).roomFor start k').insert k' _
      rw [hkeep, AList.mem_insert]
      exact .inr hpresent
    · rw [← after_config config past] at hstores
      rw [apply_insert_of_not hstores] at habsent
      exact absurd hpresent habsent
  | invalidate k' =>
    have hk : k ≠ k' := fun hk => hover hk.symm
    apply absurd _ habsent
    show k ∈ (after config past).entries.erase k'
    exact AList.mem_erase.mpr ⟨hk, hpresent⟩

theorem mem_iff_lookup {t : Table CacheKey (Entry U)} : k ∈ t ↔ ∃ e, t.lookup k = some e := by
  rw [← AList.lookup_isSome, Option.isSome_iff_exists]

/-- **What stands is in the cache, unless it was evicted.** Induction on the history: an access that
decides nothing about the key keeps the entry, or is the eviction. -/
theorem lookup_of_standing {value : U} {expiresIn : Option Duration} {finish : Instant}
    (hfits : ∀ a ∈ past, a.Fits config)
    (h : standing config k past = some (value, expiresIn, finish)) :
    (∃ e, (after config past).entries.lookup k = some e ∧ e.value = value
        ∧ e.expiresAt.nanos = deadline config expiresIn finish)
      ∨ ∃ later a earlier, past = later ++ a :: earlier
        ∧ standing config k earlier = some (value, expiresIn, finish)
        ∧ EvictedBy config k a earlier := by
  induction past with
  | nil => exact absurd h (by simp [standing])
  | cons a past ih =>
    by_cases hpresent : k ∈ (after config (a :: past)).entries
    · -- what is there stands, so it is what stands
      obtain ⟨e, he⟩ := mem_iff_lookup.mp hpresent
      obtain ⟨expiresIn', finish', hstanding, hdeadline⟩ := lookup_standing hfits he
      rw [h] at hstanding
      simp only [Option.some.injEq, Prod.mk.injEq] at hstanding
      obtain ⟨rfl, rfl, rfl⟩ := hstanding
      exact .inl ⟨e, he, rfl, hdeadline⟩
    · right
      rw [standing] at h
      by_cases hover : a.Overwrites config k
      · -- decided just now: by a write, which is there, or by an invalidation
        rw [if_pos hover] at h
        obtain ⟨start, call⟩ := a
        cases call with
        | get k' => exact absurd hover id
        | insert k' value' expiresIn' finish' =>
          obtain ⟨rfl, hstores⟩ := hover
          obtain ⟨at', hadd⟩ := hfits _ List.mem_cons_self
          rw [← after_config config past] at hstores hadd
          rw [after, apply_insert hstores hadd] at hpresent
          exact absurd ((AList.mem_insert _).mpr (.inl rfl)) hpresent
        | invalidate k' => exact absurd h (by simp [Access.stored])
      · rw [if_neg hover] at h
        have hfits' : ∀ b ∈ past, b.Fits config := fun b hb => hfits b (List.mem_cons_of_mem a hb)
        -- it was there until just now, or was gone already
        rcases ih hfits' h with ⟨e, he, hvalue, hdeadline⟩ | ⟨later, b, earlier, rfl, hstood, hevicted⟩
        · refine ⟨[], a, past, rfl, h, ?_⟩
          exact evictedBy_of_absent (hfits a List.mem_cons_self) hover (mem_iff_lookup.mpr ⟨e, he⟩)
            hpresent
        · exact ⟨a :: later, b, earlier, rfl, hstood, hevicted⟩

/-- Seconds on the clock of the example histories. -/
def atSecond (n : UInt8) : Instant := ⟨n.toNat * 1000000000, by have := n.toNat_lt; omega⟩

end History

end AuthnKit
