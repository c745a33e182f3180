import AuthnKit.Cache.History

/-!
# AuthnKit — the bound and the recency order of a cache

Which entries an insert evicts, over the histories of `Cache.History`.

* **`len_le`** — the bound is never exceeded.
* **`makeRoom_of_full`** — where every entry is unexpired and the bound is reached, exactly the
  coldest goes.
* **`stamp_lt`**, **`stamp_of_untouched`** — the logical clock orders entries by when they were
  last inserted or hit.
* **`retained`** — an entry outlasts its last use until as many other keys were used as fit.
-/

namespace AuthnKit

variable {U : Type}

/-! ## Making room

Expired entries go first. Only where the unexpired ones take all of the bound does one of them go,
and the loop then runs once. -/

namespace CredentialCache

variable {c : CredentialCache U} {now : Instant} {k : CacheKey}

def unexpired (c : CredentialCache U) (now : Instant) : Table CacheKey (Entry U) :=
  Table.retain (fun _ entry => now < entry.expiresAt) c.entries

/-- What is left after pruning are the entries whose deadline is still ahead. -/
theorem lookup_unexpired {e : Entry U} :
    (c.unexpired now).lookup k = some e ↔ c.entries.lookup k = some e ∧ now < e.expiresAt := by
  rw [unexpired, Table.lookup_retain, Option.filter_eq_some_iff, decide_eq_true_eq]

theorem length_unexpired_le : (c.unexpired now).entries.length ≤ c.len :=
  Table.length_retain_le _ _

/-- Below the bound only expired entries go, since the loop finds room already. -/
theorem makeRoom_of_lt (h : (c.unexpired now).entries.length < c.config.maxEntries) :
    c.makeRoom now = c.unexpired now :=
  Table.evictTo_of_lt _ h

/-- **At the bound exactly the coldest of the unexpired entries goes**, and no expired one is left
either. -/
theorem makeRoom_of_full (h : (c.unexpired now).entries.length = c.config.maxEntries)
    (hmax : c.config.maxEntries ≠ 0) :
    ∃ cold, Table.coldest (fun entry => entry.lastUsed.toNat) (c.unexpired now) = some cold
      ∧ c.makeRoom now = (c.unexpired now).erase cold := by
  have hpos : 0 < (c.unexpired now).entries.length := by omega
  have hcold : ∃ cold, Table.coldest (fun entry => entry.lastUsed.toNat) (c.unexpired now)
      = some cold := Table.exists_coldest (List.ne_nil_of_length_pos hpos)
  obtain ⟨cold, hcold⟩ := hcold
  exact ⟨cold, hcold, Table.evictTo_of_eq h hpos hcold⟩

theorem roomFor_le (c : CredentialCache U) (now : Instant) (k : CacheKey) :
    Table.Le (c.roomFor now k) c.entries := by
  unfold roomFor
  split
  · exact makeRoom_le c now
  · exact Table.Le.refl _

/-- Room is made, where it is needed: one more entry fits, whether the key was there or not. -/
theorem length_roomFor_insert_le {v : Entry U} (hmax : c.config.maxEntries ≠ 0)
    (hlen : c.len ≤ c.config.maxEntries) :
    ((c.roomFor now k).insert k v).entries.length ≤ c.config.maxEntries := by
  unfold roomFor
  by_cases hk : k ∈ c.entries
  · rw [if_neg fun h => h.2 hk, Table.length_insert_of_mem hk]
    exact hlen
  · by_cases hfull : c.config.maxEntries ≤ c.len
    · rw [if_pos ⟨hfull, hk⟩]
      have hroom : (c.makeRoom now).entries.length < c.config.maxEntries :=
        Table.length_evictTo_lt (by omega) _ _ (Nat.le_refl _)
      have hkeep : k ∉ c.makeRoom now := by
        intro hmem
        obtain ⟨e, he⟩ := History.mem_iff_lookup.mp hmem
        exact hk (History.mem_iff_lookup.mpr ⟨e, makeRoom_le c now k e he⟩)
      rw [Table.length_insert_of_notMem hkeep]
      omega
    · rw [if_neg fun h => hfull h.1, Table.length_insert_of_notMem hk]
      show c.len + 1 ≤ _
      omega

end CredentialCache

namespace History

variable {config : CacheConfig} {past : History CacheKey U} {k : CacheKey}

/-- One access keeps the bound, case by case. -/
theorem len_apply_le {c : CredentialCache U} {a : Access CacheKey U} (hfits : a.Fits c.config)
    (h : c.len ≤ c.config.maxEntries) : (a.apply c).len ≤ c.config.maxEntries := by
  obtain ⟨start, call⟩ := a
  cases call with
  | get k' =>
    have hsame : (c.get start k').2.entries.keySet = c.entries.keySet := by
      ext k''
      rw [Table.mem_keySet, Table.mem_keySet, CredentialCache.mem_get_iff]
    show (c.get start k').2.entries.entries.length ≤ _
    rw [← Table.card_keySet, hsame, Table.card_keySet]
    exact h
  | insert k' value expiresIn finish =>
    by_cases hstores : CredentialCache.Stores c.config expiresIn
    · obtain ⟨at', hadd⟩ := hfits
      rw [apply_insert hstores hadd]
      exact CredentialCache.length_roomFor_insert_le hstores.2 h
    · rw [apply_insert_of_not hstores]
      exact h
  | invalidate k' => exact (Table.length_erase_le k' _).trans h

/-- **The bound is never exceeded**, after any history. Induction on it. -/
theorem len_le (hfits : ∀ a ∈ past, a.Fits config) : (after config past).len ≤ config.maxEntries := by
  induction past with
  | nil => exact Nat.zero_le _
  | cons a past ih =>
    have hpast := ih fun b hb => hfits b (List.mem_cons_of_mem a hb)
    have ha := hfits a List.mem_cons_self
    have hstep : a.Fits (after config past).config →
        (after config past).len ≤ (after config past).config.maxEntries →
        (a.apply (after config past)).len ≤ (after config past).config.maxEntries := len_apply_le
    rw [after_config] at hstep
    exact hstep ha hpast

/-! ## Which entry an insert evicts -/

/-- An access removes an unexpired entry of another key. -/
def Removes (a : Access CacheKey U) (c : CredentialCache U) (k : CacheKey) : Prop :=
  a.key ≠ k ∧ k ∈ c.unexpired a.start ∧ k ∉ (a.apply c).entries

/-- **Where an insert removes an unexpired entry of another key**: it stores a new key, all of the
bound is taken by unexpired entries, and the one removed is the coldest of them. -/
theorem removes_coldest {c : CredentialCache U} {start finish : Instant} {k' : CacheKey} {value : U}
    {expiresIn : Option Duration}
    (hfits : Access.Fits c.config ⟨start, .insert k' value expiresIn finish⟩)
    (hlen : c.len ≤ c.config.maxEntries)
    (h : Removes ⟨start, .insert k' value expiresIn finish⟩ c k) :
    CredentialCache.Stores c.config expiresIn ∧ k' ∉ c.entries
      ∧ (c.unexpired start).entries.length = c.config.maxEntries
      ∧ Table.coldest (fun entry => entry.lastUsed.toNat) (c.unexpired start) = some k := by
  obtain ⟨_, hmem, hgone⟩ := h
  have hold : k ∈ c.entries := by
    obtain ⟨e, he⟩ := mem_iff_lookup.mp hmem
    exact mem_iff_lookup.mpr ⟨e, (CredentialCache.lookup_unexpired.mp he).1⟩
  have hstores : CredentialCache.Stores c.config expiresIn := by
    by_contra hstores
    rw [apply_insert_of_not hstores] at hgone
    exact hgone hold
  have hgone' : k ∉ c.roomFor start k' := by
    obtain ⟨at', hadd⟩ := hfits
    rw [apply_insert hstores hadd] at hgone
    exact fun hkeep => hgone ((AList.mem_insert _).mpr (.inr hkeep))
  have hfull : c.config.maxEntries ≤ c.len ∧ k' ∉ c.entries := by
    by_contra hno
    rw [CredentialCache.roomFor, if_neg hno] at hgone'
    exact hgone' hold
  rw [CredentialCache.roomFor, if_pos hfull] at hgone'
  have hbound : (c.unexpired start).entries.length = c.config.maxEntries := by
    have hle : (c.unexpired start).entries.length ≤ c.len := CredentialCache.length_unexpired_le
    by_contra hne
    rw [CredentialCache.makeRoom_of_lt (by omega)] at hgone'
    exact hgone' hmem
  obtain ⟨cold, hcold, hroom⟩ := CredentialCache.makeRoom_of_full hbound hstores.2
  have hk : k = cold := by
    by_contra hne
    rw [hroom] at hgone'
    exact hgone' (AList.mem_erase.mpr ⟨hne, hmem⟩)
  rw [hk]
  exact ⟨hstores, hfull.2, hbound, hcold⟩

/-! ## Recency

Every access draws a tick of a logical clock, and stamps the entry it touches with it. Stamps
thereby order entries by their last use, as long as the clock does not wrap around. -/

/-- The key an access inserts or hits. -/
def touches (a : Access CacheKey U) (c : CredentialCache U) : Option CacheKey :=
  match a.call with
  | .get k => (c.get a.start k).1.map fun _ => k
  | .insert k _ expiresIn _ => if CredentialCache.Stores c.config expiresIn then some k else none
  | .invalidate _ => none

theorem get_hit_or_miss (c : CredentialCache U) (now : Instant) (k' : CacheKey) :
    (∃ e, c.entries.lookup k' = some e ∧ now < e.expiresAt)
      ∨ ∀ e, c.entries.lookup k' = some e → ¬ now < e.expiresAt := by
  by_cases h : ∃ e, c.entries.lookup k' = some e ∧ now < e.expiresAt
  · exact .inl h
  · exact .inr fun e he hlt => h ⟨e, he, hlt⟩

/-- An access that puts one entry, stamped with its tick, into what it keeps of the table: the
common case of an insert that stores and a lookup that hits. -/
theorem stamp_insert {c : CredentialCache U} {a : Access CacheKey U} {t : Table CacheKey (Entry U)}
    {k' : CacheKey} {e' e : Entry U} (htouch : touches a c = some k') (hle : Table.Le t c.entries)
    (hstamp : e'.lastUsed = c.clock) (h : (t.insert k' e').lookup k = some e) :
    touches a c = some k ∧ e.lastUsed = c.clock
      ∨ touches a c ≠ some k ∧ c.entries.lookup k = some e := by
  by_cases hk : k = k'
  · subst hk
    rw [AList.lookup_insert] at h
    left
    rw [← Option.some.inj h]
    exact ⟨htouch, hstamp⟩
  · rw [AList.lookup_insert_ne hk] at h
    right
    refine ⟨?_, hle k e h⟩
    rw [htouch]
    exact fun heq => hk (Option.some.inj heq).symm

/-- **An entry carries the tick of the access that touched it last**: this one, or it was there
before, with the stamp it has. -/
theorem stamp_apply {c : CredentialCache U} {a : Access CacheKey U} {e : Entry U}
    (hfits : a.Fits c.config) (h : (a.apply c).entries.lookup k = some e) :
    touches a c = some k ∧ e.lastUsed = c.clock
      ∨ touches a c ≠ some k ∧ c.entries.lookup k = some e := by
  obtain ⟨start, call⟩ := a
  cases call with
  | get k' =>
    have happly : (c.get start k').2.entries.lookup k = some e := h
    rcases get_hit_or_miss c start k' with ⟨e', he', hlt⟩ | hmiss
    · -- a hit stores the entry again, under a new stamp
      have htouch : touches ⟨start, .get k'⟩ c = some k' := by
        show (c.get start k').1.map _ = _
        rw [CredentialCache.get_eq_some_iff.mpr ⟨e', he', hlt, rfl⟩]
        rfl
      rw [CredentialCache.get_of_hit he' hlt] at happly
      exact stamp_insert htouch (Table.Le.refl _) rfl happly
    · have hnone : (c.get start k').1 = none := by
        cases hget : (c.get start k').1 with
        | none => rfl
        | some v =>
          obtain ⟨e', he', hlt, _⟩ := CredentialCache.get_eq_some_iff.mp hget
          exact absurd hlt (hmiss e' he')
      right
      constructor
      · show (c.get start k').1.map _ ≠ _
        rw [hnone]
        simp
      · rwa [CredentialCache.get_of_miss hmiss] at happly
  | insert k' value expiresIn finish =>
    by_cases hstores : CredentialCache.Stores c.config expiresIn
    · obtain ⟨at', hadd⟩ := hfits
      have htouch : touches ⟨start, .insert k' value expiresIn finish⟩ c = some k' :=
        if_pos hstores
      rw [apply_insert hstores hadd] at h
      exact stamp_insert htouch (CredentialCache.roomFor_le c start k') rfl h
    · have htouch : touches ⟨start, .insert k' value expiresIn finish⟩ c = none :=
        if_neg hstores
      rw [apply_insert_of_not hstores] at h
      right
      rw [htouch]
      exact ⟨by simp, h⟩
  | invalidate k' => exact .inr ⟨by simp [touches], Table.erase_le k' c.entries k e h⟩

/-- The logical clock moves by at most one tick, and by one where a key is touched, provided that it
does not wrap around. -/
theorem clock_apply {c : CredentialCache U} {a : Access CacheKey U} (hfits : a.Fits c.config)
    (hroom : c.clock.toNat + 1 < 2 ^ 64) :
    c.clock.toNat ≤ (a.apply c).clock.toNat ∧ (a.apply c).clock.toNat ≤ c.clock.toNat + 1
      ∧ (touches a c ≠ none → (a.apply c).clock.toNat = c.clock.toNat + 1) := by
  have hnext : (c.clock + 1).toNat = c.clock.toNat + 1 := by
    rw [UInt64.toNat_add]
    exact Nat.mod_eq_of_lt hroom
  obtain ⟨start, call⟩ := a
  cases call with
  | get k' =>
    have hclock : (c.get start k').2.clock = c.clock + 1 := by
      rcases get_hit_or_miss c start k' with ⟨e, he, hlt⟩ | hmiss
      · rw [CredentialCache.get_of_hit he hlt]
      · rw [CredentialCache.get_of_miss hmiss]
    show _ ≤ (c.get start k').2.clock.toNat ∧ (c.get start k').2.clock.toNat ≤ _ ∧ _
    rw [show (Access.apply ⟨start, .get k'⟩ c).clock = c.clock + 1 from hclock, hclock, hnext]
    exact ⟨by omega, by omega, fun _ => rfl⟩
  | insert k' value expiresIn finish =>
    by_cases hstores : CredentialCache.Stores c.config expiresIn
    · obtain ⟨at', hadd⟩ := hfits
      rw [apply_insert hstores hadd]
      show _ ≤ (c.clock + 1).toNat ∧ (c.clock + 1).toNat ≤ _ ∧ (_ → (c.clock + 1).toNat = _)
      rw [hnext]
      exact ⟨by omega, by omega, fun _ => rfl⟩
    · rw [apply_insert_of_not hstores]
      refine ⟨by omega, by omega, fun htouch => ?_⟩
      exact absurd (if_neg hstores) htouch
  | invalidate k' => exact ⟨Nat.le_refl _, Nat.le_succ _, fun htouch => absurd rfl htouch⟩

/-- The keys the newer accesses inserted or hit. -/
def touchedSince (config : CacheConfig) (past : History CacheKey U) :
    History CacheKey U → Finset CacheKey
  | [] => ∅
  | a :: later =>
    (touches a (after config (later ++ past))).toFinset ∪ touchedSince config past later

/-! ### Over a history

Fewer than `2 ^ 64` accesses keep the clock from wrapping around, so that ticks can be compared as
numbers. -/

theorem fits_after {a : Access CacheKey U} (h : a.Fits config) :
    a.Fits (after config past).config := by
  rwa [after_config]

/-- Fewer accesses than the clock can count keep it from wrapping around: it is at most their
number. -/
theorem clock_le_length (hfits : ∀ a ∈ past, a.Fits config) (hlen : past.length < 2 ^ 64) :
    (after config past).clock.toNat ≤ past.length := by
  induction past with
  | nil => exact Nat.le_refl 0
  | cons a past ih =>
    rw [List.length_cons] at hlen ⊢
    have hpast := ih (fun b hb => hfits b (List.mem_cons_of_mem a hb)) (by omega)
    have hstep := (clock_apply (fits_after (hfits a List.mem_cons_self))
      (show (after config past).clock.toNat + 1 < 2 ^ 64 by omega)).2.1
    show (a.apply (after config past)).clock.toNat ≤ _
    omega

/-- What one access of a history that is short enough does to the clock: it never sets it back, and
moves it where a key is touched. -/
theorem clock_cons {a : Access CacheKey U} (hfits : ∀ b ∈ a :: past, b.Fits config)
    (hlen : (a :: past).length < 2 ^ 64) :
    (after config past).clock.toNat ≤ (after config (a :: past)).clock.toNat
      ∧ (touches a (after config past) ≠ none →
        (after config (a :: past)).clock.toNat = (after config past).clock.toNat + 1) := by
  rw [List.length_cons] at hlen
  have hle := clock_le_length (fun b hb => hfits b (List.mem_cons_of_mem a hb))
    (show past.length < 2 ^ 64 by omega)
  have hstep := clock_apply (fits_after (hfits a List.mem_cons_self))
    (show (after config past).clock.toNat + 1 < 2 ^ 64 by omega)
  exact ⟨hstep.1, hstep.2.2⟩

/-- **Every stamp lies behind the clock**, so the next tick is newer than all of them. Induction on
the history. -/
theorem stamp_lt {e : Entry U} (hfits : ∀ a ∈ past, a.Fits config) (hlen : past.length < 2 ^ 64)
    (h : (after config past).entries.lookup k = some e) :
    e.lastUsed.toNat < (after config past).clock.toNat := by
  induction past with
  | nil => exact absurd h (by simp [after, CredentialCache.new])
  | cons a past ih =>
    have hpast : ∀ b ∈ past, b.Fits config := fun b hb => hfits b (List.mem_cons_of_mem a hb)
    have hclock := clock_cons hfits hlen
    rcases stamp_apply (fits_after (hfits a List.mem_cons_self)) h with ⟨htouch, hstamp⟩ | ⟨_, hold⟩
    · rw [hstamp, hclock.2 (by rw [htouch]; simp)]
      exact Nat.lt_succ_self _
    · rw [List.length_cons] at hlen
      exact Nat.lt_of_lt_of_le (ih hpast (by omega) hold) hclock.1

/-- The clock never goes back, over any number of accesses. -/
theorem clock_mono {later : History CacheKey U} (hfits : ∀ a ∈ later ++ past, a.Fits config)
    (hlen : (later ++ past).length < 2 ^ 64) :
    (after config past).clock.toNat ≤ (after config (later ++ past)).clock.toNat := by
  induction later with
  | nil => exact Nat.le_refl _
  | cons a later ih =>
    have hlater : ∀ b ∈ later ++ past, b.Fits config :=
      fun b hb => hfits b (List.mem_cons_of_mem a hb)
    have hstep := (clock_cons hfits hlen).1
    rw [List.cons_append, List.length_cons] at hlen
    exact (ih hlater (by omega)).trans hstep

/-! ### Since an entry was used

The keys used since an access form a finite set. An entry that is coldest has all the others of the
full cache in that set, which bounds how soon it can be evicted. -/

/-- A key that is touched is in the cache afterwards. -/
theorem mem_of_touches {c : CredentialCache U} {a : Access CacheKey U} (hfits : a.Fits c.config)
    (h : touches a c = some k) : k ∈ (a.apply c).entries := by
  obtain ⟨start, call⟩ := a
  cases call with
  | get k' =>
    obtain ⟨v, hget, rfl⟩ := Option.map_eq_some_iff.mp h
    obtain ⟨e, he, _⟩ := CredentialCache.get_eq_some_iff.mp hget
    exact CredentialCache.mem_get_iff.mpr (mem_iff_lookup.mpr ⟨e, he⟩)
  | insert k' value expiresIn finish =>
    have hstores : CredentialCache.Stores c.config expiresIn := by
      by_contra hstores
      exact absurd ((if_neg hstores).symm.trans h) (by simp)
    have hk : k' = k := Option.some.inj ((if_pos hstores).symm.trans h)
    obtain ⟨at', hadd⟩ := hfits
    rw [apply_insert hstores hadd]
    exact (AList.mem_insert _).mpr (.inl hk.symm)
  | invalidate k' => exact absurd h (by simp [touches])

/-- An entry that was not used since is the one that was there, recency included. -/
theorem lookup_of_untouched {later : History CacheKey U} {e : Entry U}
    (hfits : ∀ a ∈ later ++ past, a.Fits config) (hk : k ∉ touchedSince config past later)
    (h : (after config (later ++ past)).entries.lookup k = some e) :
    (after config past).entries.lookup k = some e := by
  induction later with
  | nil => exact h
  | cons a later ih =>
    have hlater : ∀ b ∈ later ++ past, b.Fits config :=
      fun b hb => hfits b (List.mem_cons_of_mem a hb)
    rw [touchedSince, Finset.mem_union, not_or] at hk
    rcases stamp_apply (fits_after (hfits a List.mem_cons_self)) h with ⟨htouch, _⟩ | ⟨_, hold⟩
    · have htouched : touches a (after config (later ++ past)) = some k := htouch
      rw [htouched] at hk
      exact absurd (by simp) hk.1
    · exact ih hlater hk.2 hold

/-- The stamp of an entry is no older than an access that used it. -/
theorem clock_le_stamp {later : History CacheKey U} {a : Access CacheKey U} {e : Entry U}
    (hfits : ∀ b ∈ later ++ a :: past, b.Fits config)
    (hlen : (later ++ a :: past).length < 2 ^ 64) (htouch : touches a (after config past) = some k)
    (h : (after config (later ++ a :: past)).entries.lookup k = some e) :
    (after config past).clock.toNat ≤ e.lastUsed.toNat := by
  induction later with
  | nil =>
    rcases stamp_apply (fits_after (hfits a List.mem_cons_self)) h with ⟨_, hstamp⟩ | ⟨hno, _⟩
    · rw [hstamp]
    · exact absurd htouch hno
  | cons b later ih =>
    have hlater : ∀ x ∈ later ++ a :: past, x.Fits config :=
      fun x hx => hfits x (List.mem_cons_of_mem b hx)
    rw [List.cons_append, List.length_cons] at hlen
    rcases stamp_apply (fits_after (hfits b List.mem_cons_self)) h with ⟨_, hstamp⟩ | ⟨_, hold⟩
    · -- used again just now
      have hsplit : later ++ a :: past = (later ++ [a]) ++ past := by simp
      rw [hsplit] at hlater hlen
      have hmono := clock_mono hlater (by omega)
      rw [← hsplit] at hmono
      rw [hstamp]
      exact hmono
    · exact ih hlater (by omega) hold

/-- **Every other unexpired entry was used since, where the coldest entry was**: its stamp is no
older than the coldest one's, which is no older than the access. -/
theorem touched_of_coldest {later : History CacheKey U} {a : Access CacheKey U} {start : Instant}
    (hfits : ∀ b ∈ later ++ a :: past, b.Fits config)
    (hlen : (later ++ a :: past).length < 2 ^ 64) (htouch : touches a (after config past) = some k)
    (hcold : Table.coldest (fun entry => entry.lastUsed.toNat)
      ((after config (later ++ a :: past)).unexpired start) = some k) {k' : CacheKey} (hk : k' ≠ k)
    (hmem : k' ∈ (after config (later ++ a :: past)).unexpired start) :
    k' ∈ touchedSince config (a :: past) later := by
  by_contra huntouched
  obtain ⟨e', he'⟩ := mem_iff_lookup.mp hmem
  obtain ⟨e, he, hle⟩ := Table.coldest_le hcold
  have hkept := lookup_of_untouched hfits huntouched (CredentialCache.lookup_unexpired.mp he').1
  have hpast : ∀ b ∈ past, b.Fits config := fun b hb => hfits b (by simp [hb])
  have hfit : a.Fits config := hfits a (by simp)
  have hshort : past.length < 2 ^ 64 := by
    rw [List.length_append, List.length_cons] at hlen
    omega
  rcases stamp_apply (fits_after hfit) hkept with ⟨hother, _⟩ | ⟨_, hold⟩
  · exact hk (Option.some.inj (hother.symm.trans htouch))
  · -- it was there before `k` was used, and has not been used since
    have hbefore := stamp_lt hpast hshort hold
    have hafter := clock_le_stamp hfits hlen htouch (CredentialCache.lookup_unexpired.mp he).1
    have hrank := hle k' e' he'
    omega

/-- **An insert that evicts what was used has seen as many other keys used since as fit**: those
that fill the bound with the evicted one, and its own, which is new. -/
theorem maxEntries_le_touched {later : History CacheKey U} {a : Access CacheKey U}
    {start finish : Instant} {k' : CacheKey} {value : U} {expiresIn : Option Duration}
    (hfits : ∀ b ∈ later ++ a :: past, b.Fits config)
    (hlen : (later ++ a :: past).length < 2 ^ 64) (htouch : touches a (after config past) = some k)
    (hfit : Access.Fits config ⟨start, .insert k' value expiresIn finish⟩)
    (hremoves : Removes ⟨start, .insert k' value expiresIn finish⟩
      (after config (later ++ a :: past)) k) :
    config.maxEntries ≤ ((touchedSince config (a :: past)
      (⟨start, .insert k' value expiresIn finish⟩ :: later)).erase k).card := by
  have hbound : (after config (later ++ a :: past)).len
      ≤ (after config (later ++ a :: past)).config.maxEntries := by
    rw [after_config]
    exact len_le hfits
  obtain ⟨hstores, hnew, hfull, hcold⟩ := removes_coldest (fits_after hfit) hbound hremoves
  rw [after_config] at hfull
  obtain ⟨hother, hmem, _⟩ := hremoves
  -- the unexpired entries but `k`, and the key that is being inserted
  have hsub : insert k' (((after config (later ++ a :: past)).unexpired start).keySet.erase k)
      ⊆ (touchedSince config (a :: past)
        (⟨start, .insert k' value expiresIn finish⟩ :: later)).erase k := by
    intro k'' hk''
    rw [Finset.mem_erase]
    rcases Finset.mem_insert.mp hk'' with rfl | hk''
    · refine ⟨hother, Finset.mem_union_left _ ?_⟩
      have htouched : touches ⟨start, .insert k'' value expiresIn finish⟩
          (after config (later ++ a :: past)) = some k'' := if_pos hstores
      rw [htouched]
      simp
    · rw [Finset.mem_erase, Table.mem_keySet] at hk''
      exact ⟨hk''.1, Finset.mem_union_right _
        (touched_of_coldest hfits hlen htouch hcold hk''.1 hk''.2)⟩
  have hfresh : k' ∉ ((after config (later ++ a :: past)).unexpired start).keySet.erase k := by
    intro hin
    obtain ⟨e, he⟩ := mem_iff_lookup.mp (Table.mem_keySet.mp (Finset.mem_of_mem_erase hin))
    exact hnew (mem_iff_lookup.mpr ⟨e, (CredentialCache.lookup_unexpired.mp he).1⟩)
  have hkeyed : k ∈ ((after config (later ++ a :: past)).unexpired start).keySet :=
    Table.mem_keySet.mpr hmem
  have hcard := Finset.card_le_card hsub
  rw [Finset.card_insert_of_notMem hfresh, Finset.card_erase_of_mem hkeyed, Table.card_keySet,
    hfull] at hcard
  have hpos := Finset.card_pos.mpr ⟨k, hkeyed⟩
  rw [Table.card_keySet, hfull] at hpos
  omega

theorem touchedSince_subset {later : History CacheKey U} {a : Access CacheKey U} :
    touchedSince config past later ⊆ touchedSince config past (a :: later) :=
  Finset.subset_union_right

/-- The entry of `k` is never found expired by the newer accesses. -/
def NeverExpired (config : CacheConfig) (past later : History CacheKey U) (k : CacheKey) : Prop :=
  ∀ newer a older, later = newer ++ a :: older →
    ∀ e, (after config (older ++ past)).entries.lookup k = some e → a.start < e.expiresAt

/-- **An entry outlasts its last use until as many other keys were used as fit beside it.**
Induction on the accesses since; the one that would evict it finds the cache full of entries that
were all used since, and is about one more key. -/
theorem retained {later : History CacheKey U} {a : Access CacheKey U}
    (hfits : ∀ b ∈ later ++ a :: past, b.Fits config)
    (hlen : (later ++ a :: past).length < 2 ^ 64) (htouch : touches a (after config past) = some k)
    (hkeep : ∀ b ∈ later, b.call ≠ .invalidate k)
    (hexpires : NeverExpired config (a :: past) later k)
    (hfew : ((touchedSince config (a :: past) later).erase k).card < config.maxEntries) :
    k ∈ (after config (later ++ a :: past)).entries := by
  induction later with
  | nil => exact mem_of_touches (fits_after (hfits a List.mem_cons_self)) htouch
  | cons b later ih =>
    have hlater : ∀ x ∈ later ++ a :: past, x.Fits config :=
      fun x hx => hfits x (List.mem_cons_of_mem b hx)
    have hfit : b.Fits config := hfits b List.mem_cons_self
    have hshort : (later ++ a :: past).length < 2 ^ 64 := by
      rw [List.cons_append, List.length_cons] at hlen
      omega
    have hpresent : k ∈ (after config (later ++ a :: past)).entries := by
      apply ih hlater hshort fun x hx => hkeep x (List.mem_cons_of_mem b hx)
      · intro newer x older hsplit
        exact hexpires (b :: newer) x older (by rw [hsplit]; rfl)
      · have hsub : (touchedSince config (a :: past) later).erase k
            ⊆ (touchedSince config (a :: past) (b :: later)).erase k :=
          Finset.erase_subset_erase k touchedSince_subset
        exact Nat.lt_of_le_of_lt (Finset.card_le_card hsub) hfew
    -- the accesses before kept it, so this one evicts it
    by_contra habsent
    have hused : touches b (after config (later ++ a :: past)) ≠ some k :=
      fun hused => habsent (mem_of_touches (fits_after hfit) hused)
    have hover : ¬ b.Overwrites config k := by
      obtain ⟨start, call⟩ := b
      cases call with
      | get k' => exact id
      | insert k' value expiresIn finish =>
        intro ⟨hk, hstores⟩
        rw [← after_config config (later ++ a :: past)] at hstores
        rw [← hk] at hused
        exact hused (if_pos hstores)
      | invalidate k' =>
        intro hk
        exact hkeep _ List.mem_cons_self (congrArg CacheCall.invalidate hk)
    obtain ⟨hpres, habs, _, hother, hstored⟩ := evictedBy_of_absent hfit hover hpresent habsent
    obtain ⟨e, he⟩ := mem_iff_lookup.mp hpres
    have hlive : k ∈ (after config (later ++ a :: past)).unexpired b.start :=
      mem_iff_lookup.mpr ⟨e, CredentialCache.lookup_unexpired.mpr
        ⟨he, hexpires [] b later rfl e he⟩⟩
    obtain ⟨start, call⟩ := b
    cases call with
    | get k' => exact hstored rfl
    | insert k' value expiresIn finish =>
      have hmany := maxEntries_le_touched hlater hshort htouch hfit ⟨hother, hlive, habs⟩
      omega
    | invalidate k' => exact hstored rfl

/-- **A bounded cache with least-recently-used retention.** Whatever calls it is given: the bound
holds; an insert removes an unexpired entry of another key only where the bound is reached by
unexpired entries, and then one; and an entry that was inserted or hit, and has neither expired
nor been invalidated since, is there until as many other keys were inserted or hit as fit. -/
theorem bounded_lru (config : CacheConfig) (past : History CacheKey U)
    (hfits : ∀ a ∈ past, a.Fits config) (hlen : past.length < 2 ^ 64) :
    (after config past).len ≤ config.maxEntries
    ∧ (∀ start k' value expiresIn finish earlier k,
      past = ⟨start, .insert k' value expiresIn finish⟩ :: earlier →
      Removes ⟨start, .insert k' value expiresIn finish⟩ (after config earlier) k →
      ((after config earlier).unexpired start).entries.length = config.maxEntries
        ∧ ∀ k'', Removes ⟨start, .insert k' value expiresIn finish⟩ (after config earlier) k'' →
          k'' = k)
    ∧ ∀ later a earlier k, past = later ++ a :: earlier →
      touches a (after config earlier) = some k →
      (∀ b ∈ later, b.call ≠ .invalidate k) → NeverExpired config (a :: earlier) later k →
      ((touchedSince config (a :: earlier) later).erase k).card < config.maxEntries →
      k ∈ (after config past).entries := by
  refine ⟨len_le hfits, ?_, ?_⟩
  · intro start k' value expiresIn finish earlier k hpast hremoves
    subst hpast
    have hbound : (after config earlier).len ≤ (after config earlier).config.maxEntries := by
      rw [after_config]
      exact len_le fun b hb => hfits b (List.mem_cons_of_mem _ hb)
    have hfit : Access.Fits (after config earlier).config
        ⟨start, .insert k' value expiresIn finish⟩ := fits_after (hfits _ List.mem_cons_self)
    obtain ⟨_, _, hfull, hcold⟩ := removes_coldest hfit hbound hremoves
    rw [after_config] at hfull
    refine ⟨hfull, fun k'' hk'' => ?_⟩
    obtain ⟨_, _, _, hcold'⟩ := removes_coldest hfit hbound hk''
    exact Option.some.inj (hcold'.symm.trans hcold)
  · intro later a earlier k hpast htouch hkeep hexpires hfew
    subst hpast
    exact retained hfits hlen htouch hkeep hexpires hfew

/-! ## Two entries at most, and three keys -/

def demoKey (principal : String) : CacheKey := ⟨none, "basic", principal, Vector.replicate 32 0⟩

def demoInsert (n : UInt8) (principal : String) : Access CacheKey String :=
  ⟨atSecond n, .insert (demoKey principal) principal none (atSecond n)⟩

/-- Two keys are stored, the older one is hit, and then a third arrives. -/
def demoHistory : History CacheKey String :=
  [demoInsert 4 "c", ⟨atSecond 3, .get (demoKey "a")⟩, demoInsert 2 "b", demoInsert 1 "a"]

/-- The one that was hit stays when the third key finds the cache full, as only one other key has
been used since. -/
theorem demo_retained : demoKey "a" ∈ (after { maxEntries := 2 } demoHistory).entries := by
  have hfits : ∀ a ∈ demoHistory, a.Fits { maxEntries := 2 } := by
    intro a ha
    simp only [demoHistory, List.mem_cons, List.not_mem_nil, or_false] at ha
    rcases ha with rfl | rfl | rfl | rfl
    · exact ⟨atSecond 34, rfl⟩
    · trivial
    · exact ⟨atSecond 32, rfl⟩
    · exact ⟨atSecond 31, rfl⟩
  have hexpires : NeverExpired { maxEntries := 2 }
      [⟨atSecond 3, .get (demoKey "a")⟩, demoInsert 2 "b", demoInsert 1 "a"]
      [demoInsert 4 "c"] (demoKey "a") := by
    intro newer a older hsplit e he
    obtain ⟨rfl, rfl, rfl⟩ : newer = [] ∧ a = demoInsert 4 "c" ∧ older = [] := by
      cases newer with
      | nil => simpa [eq_comm] using hsplit
      | cons b newer => simp at hsplit
    have hdue : ((after { maxEntries := 2 } [⟨atSecond 3, .get (demoKey "a")⟩, demoInsert 2 "b",
        demoInsert 1 "a"]).entries.lookup (demoKey "a")).map (·.expiresAt)
          = some (atSecond 31) := by
      decide +kernel
    have hentry : (some e).map (·.expiresAt) = some (atSecond 31) :=
      (congrArg (Option.map _) he).symm.trans hdue
    rw [show e.expiresAt = atSecond 31 from Option.some.inj hentry]
    decide
  exact (bounded_lru { maxEntries := 2 } demoHistory hfits (by decide)).2.2 [demoInsert 4 "c"]
    ⟨atSecond 3, .get (demoKey "a")⟩ [demoInsert 2 "b", demoInsert 1 "a"] (demoKey "a") rfl
    (by decide +kernel) (by simp [demoInsert]) hexpires (by decide +kernel)

end History

end AuthnKit
