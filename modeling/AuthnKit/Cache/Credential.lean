import AuthnKit.Foundation.Table
import AuthnKit.Foundation.Time

/-!
# AuthnKit — the credential cache

`src/cache.rs`. The readings of the clock that the source takes inside `get` and `insert` are
arguments here; the hash function is a parameter. An insert whose deadline does not fit the
clock panics, after the map has been pruned: `Inserted` keeps both what is left and whether
that happened.

* **`get_entries`** — a lookup changes nothing but the recency of the entry it hits.
* **`insert_entries`** — after an insert every entry is the new one or an old one.
-/

namespace AuthnKit

/-- The digests of the hash function: 32 bytes. -/
abbrev Digest := Vector UInt8 32

/-- The hash function, on the UTF-8 bytes of a secret. -/
abbrev Blake3 := ByteArray → Digest

/-- No two of the secrets in question have the same digest. -/
def NoCollision (blake3 : Blake3) (secrets : String → Prop) : Prop :=
  ∀ a b, secrets a → secrets b → blake3 a.toUTF8 = blake3 b.toUTF8 → a = b

/-- BLAKE3 of `abc`, the secret of this development's examples. The digests of other inputs play
no part in them, so the function is constant elsewhere. -/
def blake3OfAbc : Blake3 := fun bytes =>
  if bytes = "abc".toUTF8 then
    #v[0x64, 0x37, 0xb3, 0xac, 0x38, 0x46, 0x51, 0x33, 0xff, 0xb6, 0x3b, 0x75, 0x27, 0x3a, 0x8d, 0xb5,
      0x48, 0xc5, 0x58, 0x46, 0x5d, 0x79, 0xdb, 0x03, 0xfd, 0x35, 0x9c, 0x6c, 0xd5, 0xbd, 0x9d, 0x85]
  else Vector.replicate 32 0

structure CacheConfig where
  refreshMargin : Duration := .fromSecs 30
  fallbackTtl : Duration := .fromSecs 60
  maxEntries : ℕ := 10000

/-- `(scope, mechanism, principal, BLAKE3(secret))`. -/
structure CacheKey where
  scope : Option String
  mechanism : String
  principal : String
  digest : Digest
  deriving DecidableEq

structure Entry (U : Type) where
  value : U
  expiresAt : Instant
  /-- Logical clock reading of the last read or write. -/
  lastUsed : UInt64

/-- The same principal with the same deadline; only the recency may differ. -/
def Entry.SameAs {U : Type} (e e' : Entry U) : Prop :=
  e.value = e'.value ∧ e.expiresAt = e'.expiresAt

structure CredentialCache (U : Type) where
  entries : Table CacheKey (Entry U) := ∅
  config : CacheConfig := {}
  /-- Logical clock; it wraps around. -/
  clock : UInt64 := 0

/-- What an insert leaves, and whether computing the deadline panicked. -/
structure Inserted (U : Type) where
  cache : CredentialCache U
  panicked : Bool

namespace CredentialCache

variable {U : Type}

def new (config : CacheConfig) : CredentialCache U := { config := config }

def key (blake3 : Blake3) (scope : Option String) (mechanism principal secret : String) :
    CacheKey where
  scope := scope
  mechanism := mechanism
  principal := principal
  digest := blake3 secret.toUTF8

def tick (c : CredentialCache U) : UInt64 × CredentialCache U :=
  (c.clock, { c with clock := c.clock + 1 })

/-- The cached principal, if present and not yet expired. -/
def get (c : CredentialCache U) (now : Instant) (k : CacheKey) :
    Option U × CredentialCache U :=
  -- a miss takes a reading of the logical clock too
  let (tick, c) := c.tick
  match (c.entries.lookup k).filter fun entry => now < entry.expiresAt with
  | some entry =>
    (some entry.value, { c with entries := c.entries.insert k { entry with lastUsed := tick } })
  | none => (none, c)

/-- The lifetime of an entry, before the deadline is computed. -/
def ttl (config : CacheConfig) (expiresIn : Option Duration) : Duration :=
  (expiresIn.getD config.fallbackTtl).saturatingSub config.refreshMargin

/-- Makes room for one more entry: expired entries first, then the coldest. -/
def makeRoom (c : CredentialCache U) (now : Instant) : Table CacheKey (Entry U) :=
  let live := Table.retain (fun _ entry => now < entry.expiresAt) c.entries
  Table.evictTo (fun entry => entry.lastUsed.toNat) c.config.maxEntries live.entries.length live

/-- Caches `value` for `expiresIn` minus the margin, or for the fallback. The clock is read
when the full map is pruned (`pruneAt`) and again for the deadline (`now`). -/
def insert (c : CredentialCache U) (pruneAt now : Instant) (k : CacheKey) (value : U)
    (expiresIn : Option Duration) : Inserted U :=
  let ttl := ttl c.config expiresIn
  -- nothing is dropped for an entry that would not be stored
  if ttl.isZero || c.config.maxEntries == 0 then
    ⟨c, false⟩
  else
    let (tick, c) := c.tick
    -- overwriting an entry needs no room
    let entries :=
      if c.config.maxEntries ≤ c.entries.entries.length ∧ k ∉ c.entries then c.makeRoom pruneAt
      else c.entries
    match now.checkedAdd ttl with
    | some expiresAt =>
      ⟨{ c with entries := entries.insert k ⟨value, expiresAt, tick⟩ }, false⟩
    -- the addition panics after the room was made
    | none => ⟨{ c with entries := entries }, true⟩

def invalidate (c : CredentialCache U) (k : CacheKey) : CredentialCache U :=
  { c with entries := c.entries.erase k }

def len (c : CredentialCache U) : ℕ := c.entries.entries.length

def isEmpty (c : CredentialCache U) : Bool := c.len == 0

/-! ## What an access leaves behind

One spec lemma for each operation: what a lookup and an insert return, and what can be in the map
afterwards. Later modules do not look into the operations again. -/

@[simp] theorem get_config (c : CredentialCache U) (now : Instant) (k : CacheKey) :
    (c.get now k).2.config = c.config := by
  unfold get
  dsimp only [tick]
  split <;> rfl

/-- A hit is an entry that has not expired: at its deadline an entry is already over. -/
theorem get_eq_some_iff {c : CredentialCache U} {now : Instant} {k : CacheKey} {v : U} :
    (c.get now k).1 = some v
      ↔ ∃ e, c.entries.lookup k = some e ∧ now < e.expiresAt ∧ e.value = v := by
  unfold get
  dsimp only [tick]
  cases hl : c.entries.lookup k with
  | none => simp
  | some e =>
    by_cases hlt : now < e.expiresAt
    · simp [Option.filter, hlt]
    · simp [Option.filter, hlt]

/-- A miss only moves the logical clock; the entry of a key that has expired stays where it is. -/
theorem get_eq_none {c : CredentialCache U} {now : Instant} {k : CacheKey}
    (h : (c.get now k).1 = none) :
    (c.get now k).2 = { c with clock := (c.get now k).2.clock } := by
  unfold get at h ⊢
  dsimp only [tick] at h ⊢
  split at h
  next entry hf => exact absurd h (by simp)
  next => rfl

/-- **A lookup keeps every entry**, up to the recency of the one it hits: what is in the map
afterwards was there before, with the same value and deadline. -/
theorem get_entries {c : CredentialCache U} {now : Instant} {k k' : CacheKey} {e : Entry U}
    (h : (c.get now k).2.entries.lookup k' = some e) :
    ∃ e', c.entries.lookup k' = some e' ∧ e.SameAs e' := by
  unfold get at h
  dsimp only [tick] at h
  cases hf : (c.entries.lookup k).filter fun entry => now < entry.expiresAt with
  | none =>
    rw [hf] at h
    exact ⟨e, h, rfl, rfl⟩
  | some hit =>
    rw [hf] at h
    have hlk : c.entries.lookup k = some hit := (Option.filter_eq_some_iff.mp hf).1
    by_cases hk : k' = k
    · subst hk
      simp only [AList.lookup_insert, Option.some.injEq] at h
      subst h
      exact ⟨hit, hlk, rfl, rfl⟩
    · simp only [AList.lookup_insert_ne hk] at h
      exact ⟨e, h, rfl, rfl⟩

theorem makeRoom_le (c : CredentialCache U) (now : Instant) :
    Table.Le (c.makeRoom now) c.entries :=
  (Table.evictTo_le _ _ _ _).trans (Table.retain_le _ _)

/-- **After an insert every entry is the new one or was there before.** The new one is stored under
`k` with the value and the deadline `now + ttl`, and only if there is a lifetime and a capacity at
all. -/
theorem insert_entries {c : CredentialCache U} {pruneAt now : Instant} {k k' : CacheKey} {v : U}
    {expiresIn : Option Duration} {e : Entry U}
    (h : (c.insert pruneAt now k v expiresIn).cache.entries.lookup k' = some e) :
    c.entries.lookup k' = some e
      ∨ k' = k ∧ e.value = v ∧ now.checkedAdd (ttl c.config expiresIn) = some e.expiresAt
        ∧ (ttl c.config expiresIn).nanos ≠ 0 ∧ c.config.maxEntries ≠ 0 := by
  unfold insert at h
  dsimp only [tick] at h
  split at h
  next => exact .inl h
  next hzero =>
    simp only [Bool.or_eq_true, Duration.isZero_iff, beq_iff_eq, not_or] at hzero
    -- whatever room was made, the entries before the write are entries of `c`
    have hle : Table.Le (if c.config.maxEntries ≤ c.entries.entries.length ∧ k ∉ c.entries then
        makeRoom { c with clock := c.clock + 1 } pruneAt else c.entries) c.entries := by
      split
      · exact makeRoom_le _ _
      · exact Table.Le.refl _
    cases hadd : now.checkedAdd (ttl c.config expiresIn) with
    | none =>
      rw [hadd] at h
      exact .inl (hle k' e h)
    | some deadline =>
      rw [hadd] at h
      by_cases hk : k' = k
      · subst hk
        simp only [AList.lookup_insert, Option.some.injEq] at h
        subst h
        exact .inr ⟨rfl, rfl, rfl, hzero.1, hzero.2⟩
      · simp only [AList.lookup_insert_ne hk] at h
        exact .inl (hle k' e h)

/-- **An insert panics exactly when a deadline is computed and does not fit the clock.** Where
nothing is stored no deadline is computed, so there is nothing to overflow. -/
theorem insert_panicked_iff {c : CredentialCache U} {pruneAt now : Instant} {k : CacheKey} {v : U}
    {expiresIn : Option Duration} :
    (c.insert pruneAt now k v expiresIn).panicked = true
      ↔ (ttl c.config expiresIn).nanos ≠ 0 ∧ c.config.maxEntries ≠ 0
        ∧ now.checkedAdd (ttl c.config expiresIn) = none := by
  unfold insert
  dsimp only [tick]
  split
  next hzero =>
    simp only [Bool.or_eq_true, Duration.isZero_iff, beq_iff_eq] at hzero
    simp only [Bool.false_eq_true, false_iff, not_and]
    intro httl hmax
    exact absurd hzero (by simp [httl, hmax])
  next hzero =>
    simp only [Bool.or_eq_true, Duration.isZero_iff, beq_iff_eq, not_or] at hzero
    cases now.checkedAdd (ttl c.config expiresIn) with
    | none => simp [hzero.1, hzero.2]
    | some deadline => simp

/-- A panicking insert leaves only entries that were there before, fewer of them where it had made
room by then. -/
theorem insert_entries_of_panicked {c : CredentialCache U} {pruneAt now : Instant}
    {k k' : CacheKey} {v : U} {expiresIn : Option Duration} {e : Entry U}
    (hp : (c.insert pruneAt now k v expiresIn).panicked = true)
    (h : (c.insert pruneAt now k v expiresIn).cache.entries.lookup k' = some e) :
    c.entries.lookup k' = some e := by
  rcases insert_entries h with hold | ⟨_, _, hadd, _⟩
  · exact hold
  · rw [(insert_panicked_iff.mp hp).2.2] at hadd
    exact absurd hadd (by simp)

/-- An insert whose deadline fits the clock stores its value until then, and is found under its key.
-/
theorem insert_lookup_self (c : CredentialCache U) (pruneAt : Instant) (k : CacheKey) (v : U)
    {now deadline : Instant} {expiresIn : Option Duration} (httl : (ttl c.config expiresIn).nanos ≠ 0)
    (hmax : c.config.maxEntries ≠ 0)
    (hadd : now.checkedAdd (ttl c.config expiresIn) = some deadline) :
    (c.insert pruneAt now k v expiresIn).panicked = false
      ∧ ∃ e, (c.insert pruneAt now k v expiresIn).cache.entries.lookup k = some e
        ∧ e.value = v ∧ e.expiresAt = deadline := by
  have hzero : ((ttl c.config expiresIn).isZero || c.config.maxEntries == 0) = false := by
    rw [Bool.or_eq_false_iff]
    refine ⟨?_, by simpa using hmax⟩
    cases h : (ttl c.config expiresIn).isZero with
    | false => rfl
    | true => exact absurd (Duration.isZero_iff.mp h) httl
  unfold insert
  dsimp only [tick]
  rw [hzero, hadd]
  exact ⟨rfl, _, AList.lookup_insert _, rfl, rfl⟩

/-! ## What an access changes

The same operations by cases, as equations. A proof about a history splits on these cases and does
not unfold the operations. -/

/-- Whether an insert with this lifetime stores anything. -/
def Stores (config : CacheConfig) (expiresIn : Option Duration) : Prop :=
  (ttl config expiresIn).nanos ≠ 0 ∧ config.maxEntries ≠ 0

instance (config : CacheConfig) (expiresIn : Option Duration) :
    Decidable (Stores config expiresIn) := inferInstanceAs (Decidable (_ ∧ _))

/-- The entries beside which a new one is written. -/
def roomFor (c : CredentialCache U) (pruneAt : Instant) (k : CacheKey) :
    Table CacheKey (Entry U) :=
  if c.config.maxEntries ≤ c.len ∧ k ∉ c.entries then c.makeRoom pruneAt else c.entries

/-- An insert that does not store returns early, and the cache is as it was. -/
theorem insert_of_not_stores {c : CredentialCache U} {pruneAt now : Instant} {k : CacheKey} {v : U}
    {expiresIn : Option Duration} (h : ¬ Stores c.config expiresIn) :
    c.insert pruneAt now k v expiresIn = ⟨c, false⟩ := by
  have hzero : ((ttl c.config expiresIn).isZero || c.config.maxEntries == 0) = true := by
    rw [Bool.or_eq_true, Duration.isZero_iff, beq_iff_eq]
    by_contra hne
    exact h ⟨fun hz => hne (.inl hz), fun hz => hne (.inr hz)⟩
  unfold insert
  dsimp only [tick]
  rw [if_pos hzero]

/-- **An insert that stores**: room is made, where the key is new and the map full, and the entry is
written with the current tick. -/
theorem insert_of_stores {c : CredentialCache U} {pruneAt now deadline : Instant} {k : CacheKey}
    {v : U} {expiresIn : Option Duration} (h : Stores c.config expiresIn)
    (hadd : now.checkedAdd (ttl c.config expiresIn) = some deadline) :
    c.insert pruneAt now k v expiresIn
      = ⟨{ c with entries := (c.roomFor pruneAt k).insert k ⟨v, deadline, c.clock⟩
                  clock := c.clock + 1 }, false⟩ := by
  have hzero : ¬ ((ttl c.config expiresIn).isZero || c.config.maxEntries == 0) = true := by
    rw [Bool.or_eq_true, Duration.isZero_iff, beq_iff_eq, not_or]
    exact h
  unfold insert
  dsimp only [tick]
  rw [if_neg hzero, hadd]
  rfl

/-- A hit refreshes the recency of its entry, and changes nothing else in the map. -/
theorem get_of_hit {c : CredentialCache U} {now : Instant} {k : CacheKey} {e : Entry U}
    (h : c.entries.lookup k = some e) (hlt : now < e.expiresAt) :
    (c.get now k).2
      = { c with entries := c.entries.insert k { e with lastUsed := c.clock }
                 clock := c.clock + 1 } := by
  unfold get
  dsimp only [tick]
  rw [h, Option.filter_some, if_pos (decide_eq_true hlt)]

/-- A miss changes no entry, whether there is none or it has expired. -/
theorem get_of_miss {c : CredentialCache U} {now : Instant} {k : CacheKey}
    (h : ∀ e, c.entries.lookup k = some e → ¬ now < e.expiresAt) :
    (c.get now k).2 = { c with clock := c.clock + 1 } := by
  unfold get
  dsimp only [tick]
  cases hl : c.entries.lookup k with
  | none => rfl
  | some e => rw [Option.filter_some, if_neg (by simpa using h e hl)]

/-- A lookup keeps every key, and adds none. -/
theorem mem_get_iff {c : CredentialCache U} {now : Instant} {k k' : CacheKey} :
    k' ∈ (c.get now k).2.entries ↔ k' ∈ c.entries := by
  by_cases hhit : ∃ e, c.entries.lookup k = some e ∧ now < e.expiresAt
  · obtain ⟨e, hlookup, hlt⟩ := hhit
    have hk : k ∈ c.entries := AList.lookup_isSome.mp (by rw [hlookup]; rfl)
    rw [get_of_hit hlookup hlt]
    show k' ∈ c.entries.insert k _ ↔ _
    rw [AList.mem_insert]
    constructor
    · intro h
      rcases h with rfl | h
      · exact hk
      · exact h
    · intro h
      exact .inr h
  · have hmiss : ∀ e, c.entries.lookup k = some e → ¬ now < e.expiresAt :=
      fun e he hlt => hhit ⟨e, he, hlt⟩
    rw [get_of_miss hmiss]

@[simp] theorem insert_config (c : CredentialCache U) (pruneAt now : Instant) (k : CacheKey)
    (v : U) (expiresIn : Option Duration) :
    (c.insert pruneAt now k v expiresIn).cache.config = c.config := by
  unfold insert
  dsimp only [tick]
  split
  · rfl
  · split <;> rfl

end CredentialCache

end AuthnKit
