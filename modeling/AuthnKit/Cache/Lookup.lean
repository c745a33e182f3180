import AuthnKit.Cache.History

/-!
# AuthnKit — what a lookup returns

Histories whose keys are the four parts a caller names, over the cache whose keys hold the digest
of the secret.

* **`get_sound_and_complete`** — a hit is the last write of exactly these parts that is still
  due; and such a write is a hit, unless it was evicted.
-/

namespace AuthnKit

variable {U : Type}

/-- What a caller builds a key from. -/
structure KeyParts where
  scope : Option String
  mechanism : String
  principal : String
  secret : String
  deriving DecidableEq

namespace KeyParts

def key (blake3 : Blake3) (p : KeyParts) : CacheKey :=
  CredentialCache.key blake3 p.scope p.mechanism p.principal p.secret

/-- Without collisions a key determines its parts: scope, mechanism and principal are stored as they
are, the secret as its digest. -/
theorem key_inj {blake3 : Blake3} {secrets : String → Prop} (hcoll : NoCollision blake3 secrets)
    {p q : KeyParts} (hp : secrets p.secret) (hq : secrets q.secret)
    (h : p.key blake3 = q.key blake3) : p = q := by
  simp only [key, CredentialCache.key, CacheKey.mk.injEq] at h
  obtain ⟨hscope, hmechanism, hprincipal, hdigest⟩ := h
  have hsecret : p.secret = q.secret := hcoll p.secret q.secret hp hq hdigest
  cases p
  cases q
  simp_all

end KeyParts

namespace History

/-- The history as the cache sees it. -/
def hashed (blake3 : Blake3) (past : History KeyParts U) : History CacheKey U :=
  past.map (Access.map (KeyParts.key blake3))

variable {config : CacheConfig} {blake3 : Blake3} {past : History KeyParts U} {p : KeyParts}

/-- Whether deadlines fit the clock does not depend on the keys. -/
theorem fits_hashed (h : ∀ a ∈ past, a.Fits config) : ∀ a ∈ hashed blake3 past, a.Fits config := by
  intro a ha
  obtain ⟨b, hb, rfl⟩ := List.mem_map.mp ha
  exact fits_map.mpr (h b hb)

/-- The secrets in question: those of the history and the one looked up. -/
def Presented (past : History KeyParts U) (p : KeyParts) (secret : String) : Prop :=
  secret = p.secret ∨ ∃ a ∈ past, a.key.secret = secret

/-- What stands under the parts is what stands under their key, where no two of the secrets in
question have one digest. -/
theorem standing_hashed (hcoll : NoCollision blake3 (Presented past p)) :
    standing config (p.key blake3) (hashed blake3 past) = standing config p past := by
  apply standing_map
  intro a ha hkey
  exact KeyParts.key_inj hcoll (.inr ⟨a, ha, rfl⟩) (.inl rfl) hkey

/-- Fewer secrets collide no more: the assumption passes to every earlier part of the history. -/
theorem noCollision_earlier {later : History KeyParts U} (hcoll : NoCollision blake3
    (Presented (later ++ past) p)) : NoCollision blake3 (Presented past p) := by
  intro a b ha hb
  have hwiden : ∀ s, Presented past p s → Presented (later ++ past) p s := by
    intro s hs
    rcases hs with rfl | ⟨x, hx, rfl⟩
    · exact .inl rfl
    · exact .inr ⟨x, List.mem_append_right later hx, rfl⟩
  exact hcoll a b (hwiden a ha) (hwiden b hb)

/-- A lookup at `t` hits what stands, until its deadline, in numbers of the clock. -/
theorem get_eq_some_of_lookup {t : Instant} {k : CacheKey} {c : CredentialCache U} {value : U} :
    (c.get t k).1 = some value
      ↔ ∃ e, c.entries.lookup k = some e ∧ t.nanos < e.expiresAt.nanos ∧ e.value = value :=
  CredentialCache.get_eq_some_iff

/-- **Lookups are sound, and complete up to eviction.** A hit at `t` is the value of an insert of
exactly these parts, still due, that nothing decided about since. A value so inserted is what a
lookup returns while it is due, unless an insert of another key evicted it at capacity. -/
theorem get_sound_and_complete (config : CacheConfig) (blake3 : Blake3) (past : History KeyParts U)
    (p : KeyParts) (t : Instant) (htimed : Timed past t) (hfits : ∀ a ∈ past, a.Fits config)
    (hcoll : NoCollision blake3 (Presented past p)) :
    (∀ value, ((after config (hashed blake3 past)).get t (p.key blake3)).1 = some value →
      ∃ expiresIn t₀, LastWrite config p past value expiresIn t₀
        ∧ t.nanos < t₀.nanos
          + ((expiresIn.getD config.fallbackTtl).nanos - config.refreshMargin.nanos))
    ∧ ∀ value expiresIn t₀, LastWrite config p past value expiresIn t₀ →
      t.nanos < t₀.nanos
        + ((expiresIn.getD config.fallbackTtl).nanos - config.refreshMargin.nanos) →
      ((after config (hashed blake3 past)).get t (p.key blake3)).1 = some value
        ∨ ∃ later a earlier, past = later ++ a :: earlier
          ∧ LastWrite config p earlier value expiresIn t₀
          ∧ a.start.nanos < t₀.nanos
            + ((expiresIn.getD config.fallbackTtl).nanos - config.refreshMargin.nanos)
          ∧ EvictedBy config (p.key blake3) (a.map (KeyParts.key blake3))
              (hashed blake3 earlier) := by
  have hhashed : ∀ a ∈ hashed blake3 past, a.Fits config := fits_hashed hfits
  constructor
  · intro value hget
    obtain ⟨e, he, hlt, rfl⟩ := get_eq_some_of_lookup.mp hget
    -- what stands under the hash stands under the parts
    obtain ⟨expiresIn, t₀, hstanding, hdeadline⟩ := lookup_standing hhashed he
    rw [standing_hashed hcoll] at hstanding
    refine ⟨expiresIn, t₀, standing_eq_some_iff.mp hstanding, ?_⟩
    rw [hdeadline] at hlt
    exact hlt
  · intro value expiresIn t₀ hwrite hlt
    have hstanding : standing config (p.key blake3) (hashed blake3 past)
        = some (value, expiresIn, t₀) := by
      rw [standing_hashed hcoll]
      exact standing_eq_some_iff.mpr hwrite
    rcases lookup_of_standing hhashed hstanding with
      ⟨e, he, hvalue, hdeadline⟩ | ⟨later', a', earlier', hsplit, hstood, hevicted⟩
    · left
      apply get_eq_some_of_lookup.mpr
      refine ⟨e, he, ?_, hvalue⟩
      rw [hdeadline]
      exact hlt
    · right
      -- the history of parts splits where the hashed one does
      obtain ⟨later, rest, rfl, rfl, hrest⟩ := List.map_eq_append_iff.mp hsplit
      obtain ⟨a, earlier, rfl, rfl, rfl⟩ := List.map_eq_cons_iff.mp hrest
      have hcoll' : NoCollision blake3 (Presented earlier p) := by
        have hsplit' : later ++ a :: earlier = (later ++ [a]) ++ earlier := by simp
        rw [hsplit'] at hcoll
        exact noCollision_earlier hcoll
      refine ⟨later, a, earlier, rfl, ?_, ?_, hevicted⟩
      · apply standing_eq_some_iff.mp
        rw [← standing_hashed hcoll']
        exact hstood
      · have hstart : a.start ≤ t := htimed.start_le a (by simp)
        exact Nat.lt_of_le_of_lt hstart hlt

/-! ## Two entries at most, and three principals with one secret

The parts differ in the scope, the mechanism and the principal; the secret is `abc` each time.
`ada` is written twice, `bob` is read, and `carol` finds the cache full. -/

def abcParts (scope : Option String) (mechanism principal : String) : KeyParts :=
  ⟨scope, mechanism, principal, "abc"⟩

def abcInsert (n : UInt8) (p : KeyParts) (value : String) : Access KeyParts String :=
  ⟨atSecond n, .insert p value none (atSecond n)⟩

def adaParts : KeyParts := abcParts none "basic" "ada"

def bobParts : KeyParts := abcParts (some "acme") "basic" "bob"

def carolParts : KeyParts := abcParts none "introspection" ""

def abcHistory : History KeyParts String :=
  [abcInsert 4 carolParts "carol", ⟨atSecond 3, .get bobParts⟩, abcInsert 2 bobParts "bob",
    abcInsert 1 adaParts "ada, again", abcInsert 0 adaParts "ada"]

def abcCapacity : CacheConfig := { maxEntries := 2 }

/-- **A hit and an eviction.** `bob` is found, so the write it comes from is still due; the second
write of `ada` is still due as well but is not found, so an insert of another key has evicted it
from the full cache. -/
theorem abcHistory_looked_up :
    (∃ expiresIn t₀, LastWrite abcCapacity bobParts abcHistory "bob" expiresIn t₀
      ∧ (atSecond 10).nanos < t₀.nanos + ((expiresIn.getD (.fromSecs 60)).nanos
        - (Duration.fromSecs 30).nanos))
    ∧ ∃ later a earlier, abcHistory = later ++ a :: earlier
      ∧ LastWrite abcCapacity adaParts earlier "ada, again" none (atSecond 1)
      ∧ a.start.nanos < (atSecond 31).nanos
      ∧ EvictedBy abcCapacity (adaParts.key blake3OfAbc) (a.map (KeyParts.key blake3OfAbc))
        (hashed blake3OfAbc earlier) := by
  have htimed : Timed abcHistory (atSecond 10) := by
    simp only [abcHistory, Timed, Access.finish, abcInsert, and_true]
    decide
  have hfits : ∀ a ∈ abcHistory, a.Fits abcCapacity := by
    intro a ha
    simp only [abcHistory, List.mem_cons, List.not_mem_nil, or_false] at ha
    rcases ha with rfl | rfl | rfl | rfl | rfl
    · exact ⟨atSecond 34, rfl⟩
    · trivial
    · exact ⟨atSecond 32, rfl⟩
    · exact ⟨atSecond 31, rfl⟩
    · exact ⟨atSecond 30, rfl⟩
  -- every secret of the history is the same one
  have hsecret : ∀ p : KeyParts, p = adaParts ∨ p = bobParts → ∀ s, Presented abcHistory p s →
      s = "abc" := by
    intro p hp s hs
    rcases hs with rfl | ⟨a, ha, rfl⟩
    · rcases hp with rfl | rfl <;> rfl
    · simp only [abcHistory, List.mem_cons, List.not_mem_nil, or_false] at ha
      rcases ha with rfl | rfl | rfl | rfl | rfl <;> rfl
  have hcoll : ∀ p : KeyParts, p = adaParts ∨ p = bobParts →
      NoCollision blake3OfAbc (Presented abcHistory p) := by
    intro p hp a b ha hb _
    rw [hsecret p hp a ha, hsecret p hp b hb]
  have hada : LastWrite abcCapacity adaParts abcHistory "ada, again" none (atSecond 1) :=
    standing_eq_some_iff.mp (by decide +kernel)
  constructor
  · exact (get_sound_and_complete abcCapacity blake3OfAbc abcHistory bobParts (atSecond 10) htimed
      hfits (hcoll bobParts (.inr rfl))).1 "bob" (by decide +kernel)
  · have hdue := (get_sound_and_complete abcCapacity blake3OfAbc abcHistory adaParts (atSecond 10)
      htimed hfits (hcoll adaParts (.inl rfl))).2 "ada, again" none (atSecond 1) hada (by decide)
    have hmissed : ((after abcCapacity (hashed blake3OfAbc abcHistory)).get (atSecond 10)
        (adaParts.key blake3OfAbc)).1 ≠ some "ada, again" := by
      decide +kernel
    exact hdue.resolve_left hmissed

end History

end AuthnKit
