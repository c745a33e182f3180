import AuthnKit.Cache.History

/-!
# AuthnKit — what an insert promises

`CredentialCache::insert` of `src/cache.rs`, for every lifetime a provider may report.

* **`insert_completes_iff`** — the lifetimes with which an insert comes to its end.
* **`lookup_of_not_inserts`**, **`lookup_append`** — until the next insert of a key its entry can
  only go.
* **`supersedes_iff`** — when the key is answered with the newer value, if at all, until then.
-/

namespace AuthnKit

/-! ## Completion

The code computes the deadline after it has made room, with an addition that can overflow. Whether
an insert completes is a condition on the lifetime, the margin and the clock. -/

namespace CredentialCache

variable {U : Type} {c : CredentialCache U} {pruneAt now : Instant} {k : CacheKey} {v : U}
  {expiresIn : Option Duration}

/-- The insert returns, and no entry goes unless the new one is stored. -/
structure Completes (c : CredentialCache U) (pruneAt now : Instant) (k : CacheKey) (v : U)
    (expiresIn : Option Duration) : Prop where
  returns : (c.insert pruneAt now k v expiresIn).panicked = false
  stored : ∀ k' ∈ c.entries, k' ∉ (c.insert pruneAt now k v expiresIn).cache.entries →
    ∃ e, (c.insert pruneAt now k v expiresIn).cache.entries.lookup k = some e ∧ e.value = v

/-- An insert stores when its lifetime exceeds the margin and the cache may hold anything. -/
theorem stores_iff {config : CacheConfig} :
    Stores config expiresIn
      ↔ config.refreshMargin.nanos < (expiresIn.getD config.fallbackTtl).nanos
        ∧ config.maxEntries ≠ 0 := by
  have httl : (ttl config expiresIn).nanos
      = (expiresIn.getD config.fallbackTtl).nanos - config.refreshMargin.nanos := rfl
  unfold Stores
  rw [httl, Nat.sub_ne_zero_iff_lt]

/-- An insert that stores and returns has computed its deadline, so the addition did not overflow.
-/
theorem exists_deadline (h : Stores c.config expiresIn)
    (hreturns : (c.insert pruneAt now k v expiresIn).panicked = false) :
    ∃ deadline, now.checkedAdd (ttl c.config expiresIn) = some deadline := by
  cases hadd : now.checkedAdd (ttl c.config expiresIn) with
  | some deadline => exact ⟨deadline, rfl⟩
  | none =>
    have hpanicked : (c.insert pruneAt now k v expiresIn).panicked = true :=
      insert_panicked_iff.mpr ⟨h.1, h.2, hadd⟩
    rw [hreturns] at hpanicked
    cases hpanicked

/-- An insert that does not store completes, since it does nothing. -/
theorem completes_of_not_stores (h : ¬ Stores c.config expiresIn) :
    c.Completes pruneAt now k v expiresIn := by
  have hsame : c.insert pruneAt now k v expiresIn = ⟨c, false⟩ := insert_of_not_stores h
  constructor
  case returns => rw [hsame]
  case stored =>
    intro k' hk' hgone
    rw [hsame] at hgone
    exact absurd hk' hgone

/-- An insert that stores completes exactly when there is an instant for its deadline; otherwise it
panics after having made room. -/
theorem completes_of_stores (h : Stores c.config expiresIn) :
    c.Completes pruneAt now k v expiresIn
      ↔ ∃ deadline, now.checkedAdd (ttl c.config expiresIn) = some deadline := by
  constructor
  · exact fun hcompletes => exists_deadline h hcompletes.returns
  · rintro ⟨deadline, hadd⟩
    obtain ⟨hreturns, e, he, hvalue, -⟩ := c.insert_lookup_self pruneAt k v h.1 h.2 hadd
    exact ⟨hreturns, fun _ _ _ => ⟨e, he, hvalue⟩⟩

/-- There is an instant for a deadline exactly below second `2 ^ 63` of the clock. -/
theorem exists_checkedAdd_iff {i : Instant} {d : Duration} :
    (∃ deadline, i.checkedAdd d = some deadline) ↔ i.nanos + d.nanos < 2 ^ 63 * 1000000000 := by
  constructor
  · rintro ⟨deadline, h⟩
    rw [← Instant.checkedAdd_eq_some.mp h]
    exact deadline.lt_max
  · intro h
    exact ⟨⟨_, h⟩, dif_pos h⟩

/-- **An insert completes, unless it stores and its deadline does not fit the clock.** The condition
names the lifetime that was asked for or the fallback, the margin, the bound and the clock's
reading. -/
theorem insert_completes_iff (c : CredentialCache U) (pruneAt now : Instant) (k : CacheKey) (v : U)
    (expiresIn : Option Duration) :
    c.Completes pruneAt now k v expiresIn
      ↔ (expiresIn.getD c.config.fallbackTtl).nanos ≤ c.config.refreshMargin.nanos
        ∨ c.config.maxEntries = 0
        ∨ now.nanos + ((expiresIn.getD c.config.fallbackTtl).nanos - c.config.refreshMargin.nanos)
          < 2 ^ 63 * 1000000000 := by
  by_cases hstores : Stores c.config expiresIn
  · rw [completes_of_stores hstores, exists_checkedAdd_iff]
    obtain ⟨hlt, hmax⟩ := stores_iff.mp hstores
    rw [or_iff_right (by omega), or_iff_right hmax]
    rfl
  · refine iff_of_true (completes_of_not_stores hstores) ?_
    rw [stores_iff, not_and_or, not_not, not_lt] at hstores
    rcases hstores with hle | hzero
    · exact .inl hle
    · exact .inr (.inl hzero)

/-! ### A full cache

Room for one entry, which is taken: an insert that panics has evicted it and stores nothing instead.
-/

def aliceKey : CacheKey := ⟨none, "basic-password", "alice", Vector.replicate 32 0⟩

def bobKey : CacheKey := ⟨none, "basic-password", "bob", Vector.replicate 32 0⟩

def noon : Instant := ⟨0, Instant.zero_lt_max⟩

/-- Room for one entry, which is alice's. -/
def crowded : CredentialCache String :=
  History.after { maxEntries := 1 }
    [⟨noon, .insert aliceKey "alice" (some (.fromSecs 3600)) noon⟩]

theorem crowded_completes : crowded.Completes noon noon bobKey "bob" (some (.fromSecs 3600)) :=
  (insert_completes_iff crowded noon noon bobKey "bob" _).mpr (.inr (.inr (by decide +kernel)))

/-- The longest lifetime a provider can report: alice's entry is gone and bob's is not there. -/
theorem crowded_panics :
    (crowded.insert noon noon bobKey "bob" (some (.fromSecs (2 ^ 64 - 1)))).panicked = true
      ∧ aliceKey ∈ crowded.entries
      ∧ (crowded.insert noon noon bobKey "bob" (some (.fromSecs (2 ^ 64 - 1)))).cache.len = 0
      ∧ ¬ crowded.Completes noon noon bobKey "bob" (some (.fromSecs (2 ^ 64 - 1))) := by
  have hpanicked : (crowded.insert noon noon bobKey "bob"
      (some (.fromSecs (2 ^ 64 - 1)))).panicked = true := by decide +kernel
  refine ⟨hpanicked, by decide +kernel, by decide +kernel, fun h => ?_⟩
  rw [h.returns] at hpanicked
  cases hpanicked

end CredentialCache

/-! ## Supersession

A key is validated again and its new principal is cached. Until when the old one can be served is a
question about the insert that returns early. -/

namespace Access

/-- The access is an insert of the key, whether it stores or not. -/
def Inserts {K U : Type} (k : K) (a : Access K U) : Prop :=
  match a.call with
  | .insert k' _ _ _ => k' = k
  | _ => False

end Access

namespace History

variable {U : Type} {config : CacheConfig} {k : CacheKey}

/-- Without an insert of the key its entry is kept or goes, also where the access is an
invalidation. -/
theorem lookup_of_not_inserts {c : CredentialCache U} {a : Access CacheKey U} {e : Entry U}
    (h : ¬ a.Inserts k) (hlookup : (a.apply c).entries.lookup k = some e) :
    ∃ e', c.entries.lookup k = some e' ∧ e.SameAs e' := by
  by_cases hover : a.Overwrites c.config k
  · obtain ⟨start, call⟩ := a
    cases call with
    | get k' => exact absurd hover id
    | insert k' value expiresIn finish => exact absurd hover.1 h
    | invalidate k' =>
      have hk : k' = k := hover
      subst hk
      exact absurd hlookup (by simp [Access.apply, CredentialCache.invalidate])
  · exact lookup_of_not_overwrites hover hlookup

/-- **The entry of a key comes from the last insert of it**, or from before: accesses that do not
insert it add none. Induction on them. -/
theorem lookup_append {later past : History CacheKey U} {e : Entry U}
    (h : ∀ a ∈ later, ¬ a.Inserts k)
    (hlookup : (after config (later ++ past)).entries.lookup k = some e) :
    ∃ e', (after config past).entries.lookup k = some e' ∧ e.SameAs e' := by
  induction later generalizing e with
  | nil => exact ⟨e, hlookup, rfl, rfl⟩
  | cons a later ih =>
    obtain ⟨e₁, h₁, hvalue₁, hexpires₁⟩ := lookup_of_not_inserts (h a List.mem_cons_self) hlookup
    obtain ⟨e₂, h₂, hvalue₂, hexpires₂⟩ := ih (fun b hb => h b (List.mem_cons_of_mem a hb)) h₁
    exact ⟨e₂, h₂, hvalue₁.trans hvalue₂, hexpires₁.trans hexpires₂⟩

/-- Once the insert has returned, and until the next insert of the key, a lookup of it finds this
value or none. -/
def Supersedes (config : CacheConfig) (earlier : History CacheKey U) (start finish : Instant)
    (k : CacheKey) (v : U) (expiresIn : Option Duration) : Prop :=
  ∀ (later : History CacheKey U) (t : Instant), (∀ a ∈ later, ¬ a.Inserts k) → finish ≤ t →
    ((after config (later ++ ⟨start, .insert k v expiresIn finish⟩ :: earlier)).get t k).1 = none
      ∨ ((after config (later ++ ⟨start, .insert k v expiresIn finish⟩ :: earlier)).get t k).1
        = some v

section Supersedes

variable {earlier : History CacheKey U} {start finish : Instant} {v : U}
  {expiresIn : Option Duration}

/-- What a lookup finds later is an entry the insert left, so it is enough to look at those. -/
theorem supersedes_of_lookup
    (h : ∀ e, (after config (⟨start, .insert k v expiresIn finish⟩ :: earlier)).entries.lookup k
      = some e → finish < e.expiresAt → e.value = v) :
    Supersedes config earlier start finish k v expiresIn := by
  intro later t hlater ht
  cases hget : ((after config
      (later ++ ⟨start, .insert k v expiresIn finish⟩ :: earlier)).get t k).1 with
  | none => exact .inl rfl
  | some w =>
    right
    obtain ⟨e, he, hlive, hvalue⟩ := CredentialCache.get_eq_some_iff.mp hget
    obtain ⟨e', he', hsame, hexpires⟩ := lookup_append hlater he
    have hlive' : finish < e'.expiresAt := by
      rw [← hexpires]
      exact Nat.lt_of_le_of_lt ht hlive
    rw [← hvalue, hsame, h e' he' hlive']

/-- An insert that stores leaves its own value, whatever was there before. -/
theorem supersedes_of_stores (hstores : CredentialCache.Stores config expiresIn)
    (hreturns : ((after config earlier).insert start finish k v expiresIn).panicked = false) :
    Supersedes config earlier start finish k v expiresIn := by
  have hstores' : CredentialCache.Stores (after config earlier).config expiresIn := by
    rwa [after_config]
  obtain ⟨deadline, hadd⟩ := CredentialCache.exists_deadline hstores' hreturns
  obtain ⟨-, stored, hstored, hvalue, -⟩ :=
    (after config earlier).insert_lookup_self start k v hstores'.1 hstores'.2 hadd
  apply supersedes_of_lookup
  intro e he _
  have hsame : some e = some stored := he.symm.trans hstored
  rw [Option.some.inj hsame, hvalue]

/-- **A newer value supersedes the older**, unless it is not stored and the older one, another, has
not expired: then the insert returns early and leaves it. Both directions hold for every history
before the insert. -/
theorem supersedes_iff
    (hreturns : ((after config earlier).insert start finish k v expiresIn).panicked = false) :
    Supersedes config earlier start finish k v expiresIn
      ↔ CredentialCache.Stores config expiresIn
        ∨ ∀ e, (after config earlier).entries.lookup k = some e → finish < e.expiresAt →
          e.value = v := by
  by_cases hstores : CredentialCache.Stores config expiresIn
  · exact iff_of_true (supersedes_of_stores hstores hreturns) (.inl hstores)
  rw [or_iff_right hstores]
  -- the insert changes nothing
  have hsame : after config (⟨start, .insert k v expiresIn finish⟩ :: earlier)
      = after config earlier := by
    rw [after, apply_insert_of_not (by rwa [after_config])]
  constructor
  · intro h e he hlive
    have hget : ((after config earlier).get finish k).1 = some e.value :=
      CredentialCache.get_eq_some_iff.mpr ⟨e, he, hlive, rfl⟩
    have hanswer := h [] finish (fun _ hmem => absurd hmem List.not_mem_nil) (Nat.le_refl _)
    rw [List.nil_append, hsame, hget] at hanswer
    rcases hanswer with hnone | hvalue
    · cases hnone
    · exact Option.some.inj hvalue
  · intro h
    apply supersedes_of_lookup
    rwa [hsame]

end Supersedes

/-! ### Two validations of one key

The second validation reports a lifetime that the margin uses up, and the first one's principal is
still served. -/

def firstValidation : History CacheKey String :=
  [⟨CredentialCache.noon, .insert CredentialCache.aliceKey "alice" (some (.fromSecs 3600))
    CredentialCache.noon⟩]

def tenLater : Instant := ⟨10000000000, by decide⟩

theorem supersedes_firstValidation :
    Supersedes {} firstValidation tenLater tenLater CredentialCache.aliceKey "alice (admin)" none :=
  (supersedes_iff (by decide +kernel)).mpr (.inl (by decide +kernel))

/-- A second validation whose lifetime is the margin leaves the first, which a lookup then returns.
-/
theorem not_supersedes_firstValidation :
    ((after {} (⟨tenLater, .insert CredentialCache.aliceKey "alice (demoted)"
        (some (.fromSecs 30)) tenLater⟩ :: firstValidation)).get tenLater
          CredentialCache.aliceKey).1 = some "alice"
      ∧ ¬ Supersedes {} firstValidation tenLater tenLater CredentialCache.aliceKey
        "alice (demoted)" (some (.fromSecs 30)) := by
  have hget : ((after {} (⟨tenLater, .insert CredentialCache.aliceKey "alice (demoted)"
      (some (.fromSecs 30)) tenLater⟩ :: firstValidation)).get tenLater
        CredentialCache.aliceKey).1 = some "alice" := by decide +kernel
  refine ⟨hget, fun h => ?_⟩
  have hanswer := h [] tenLater (fun _ hmem => absurd hmem List.not_mem_nil) (Nat.le_refl _)
  rw [List.nil_append, hget] at hanswer
  rcases hanswer with hnone | hvalue
  · cases hnone
  · exact absurd hvalue (by decide)

end History

end AuthnKit
