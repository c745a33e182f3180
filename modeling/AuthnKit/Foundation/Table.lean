import Mathlib

/-!
# AuthnKit — tables

A hash map as an association list without duplicate keys (Mathlib's `AList`); the order of the
list is the order the map happens to iterate in. Mathlib has insertion, erasure and lookup;
here are the two operations a bounded map needs besides.

* **`retain`** — drop the entries that fail a test.
* **`evictTo`** — remove the entry of least rank until fewer than a bound are left.
* **`lastValue`** — what a list of pairs leaves under a key when they are inserted in turn.

Each comes with its lookup lemma and the fact that it only removes (`retain_le`, `evictTo_le`),
and `evictTo` with the bound it establishes.
-/

namespace AuthnKit

/-- A map from `K` to `V`. -/
abbrev Table (K V : Type) := AList fun _ : K => V

namespace Table

variable {K V : Type}

/-- The key of the first entry of least rank. -/
def coldest (rank : V → ℕ) (t : Table K V) : Option K :=
  (t.entries.argmin fun e => rank e.2).map (·.1)

theorem coldest_eq_none_iff {rank : V → ℕ} {t : Table K V} :
    coldest rank t = none ↔ t.entries = [] := by
  rw [coldest, Option.map_eq_none_iff, List.argmin_eq_none]

theorem mem_of_coldest {rank : V → ℕ} {t : Table K V} {k : K} (h : coldest rank t = some k) :
    k ∈ t := by
  obtain ⟨e, he, rfl⟩ := Option.map_eq_some_iff.mp h
  have hmem : e ∈ t.entries := List.argmin_mem he
  exact List.mem_keys_of_mem hmem

theorem exists_coldest {rank : V → ℕ} {t : Table K V} (h : t.entries ≠ []) :
    ∃ k, coldest rank t = some k := by
  cases hc : coldest rank t with
  | none => exact absurd (coldest_eq_none_iff.mp hc) h
  | some k => exact ⟨k, rfl⟩

variable [DecidableEq K]

/-- Every entry of `s` is an entry of `t`. -/
def Le (s t : Table K V) : Prop := ∀ k v, s.lookup k = some v → t.lookup k = some v

theorem Le.refl (t : Table K V) : Le t t := fun _ _ h => h

theorem Le.trans {r s t : Table K V} (h₁ : Le r s) (h₂ : Le s t) : Le r t :=
  fun k v h => h₂ k v (h₁ k v h)

theorem erase_le (k : K) (t : Table K V) : Le (t.erase k) t := by
  intro k' v h
  by_cases hk : k' = k
  · subst hk
    rw [AList.lookup_erase] at h
    exact absurd h (by simp)
  · rwa [AList.lookup_erase_ne hk] at h

/-- An entry is in the list exactly when it is looked up, since no key is in the list twice. -/
theorem mem_entries_iff {t : Table K V} {k : K} {v : V} :
    (⟨k, v⟩ : Sigma fun _ : K => V) ∈ t.entries ↔ t.lookup k = some v :=
  AList.mem_lookup_iff.symm

/-- No entry ranks below the coldest: of entries with the same rank the first one is taken, so the
rank is a minimum and the key is one of those that have it. -/
theorem coldest_le {rank : V → ℕ} {t : Table K V} {k : K} (h : coldest rank t = some k) :
    ∃ v, t.lookup k = some v ∧ ∀ k' v', t.lookup k' = some v' → rank v ≤ rank v' := by
  obtain ⟨e, he, rfl⟩ := Option.map_eq_some_iff.mp h
  have hmem : e ∈ t.entries := List.argmin_mem he
  refine ⟨e.2, mem_entries_iff.mp hmem, ?_⟩
  intro k' v' hv
  have hentry : (⟨k', v'⟩ : Sigma fun _ : K => V) ∈ t.entries := mem_entries_iff.mpr hv
  exact List.le_of_mem_argmin (f := fun e : Sigma fun _ : K => V => rank e.2) hentry he

/-! ## Dropping entries

Dropping is a filter on the entries, and a lookup afterwards is the lookup before, filtered. -/

/-- The entries that pass the test. -/
def retain (p : K → V → Bool) (t : Table K V) : Table K V :=
  ⟨t.entries.filter fun e => p e.1 e.2, t.nodupKeys.sublist List.filter_sublist⟩

/-- What a dropped table answers is what the table did, where it passes the test. -/
theorem lookup_retain (p : K → V → Bool) (t : Table K V) (k : K) :
    (retain p t).lookup k = (t.lookup k).filter (p k) := by
  apply Option.ext
  intro v
  rw [← mem_entries_iff, retain, List.mem_filter, mem_entries_iff, Option.filter_eq_some_iff]

theorem retain_le (p : K → V → Bool) (t : Table K V) : Le (retain p t) t := by
  intro k v h
  rw [lookup_retain, Option.filter_eq_some_iff] at h
  exact h.1

/-! ## Evicting by rank

The loop that makes room: the number of entries counts its rounds, and its effect on a table that is
exactly full is a single eviction. -/

/-- Remove the coldest entry while `bound` or more are left. `fuel` bounds the rounds; the
number of entries is enough. -/
def evictTo (rank : V → ℕ) (bound : ℕ) : ℕ → Table K V → Table K V
  | 0, t => t
  | fuel + 1, t =>
    if bound ≤ t.entries.length then
      match coldest rank t with
      | some k => evictTo rank bound fuel (t.erase k)
      | none => t
    else t

theorem evictTo_le (rank : V → ℕ) (bound fuel : ℕ) (t : Table K V) :
    Le (evictTo rank bound fuel t) t := by
  induction fuel generalizing t with
  | zero => exact Le.refl t
  | succ fuel ih =>
    rw [evictTo]
    split
    · cases coldest rank t with
      | none => exact Le.refl t
      | some k => exact (ih (t.erase k)).trans (erase_le k t)
    · exact Le.refl t

omit [DecidableEq K] in
theorem length_keys (t : Table K V) : t.keys.length = t.entries.length := by
  simp [AList.keys, List.keys]

theorem length_insert_of_mem {t : Table K V} {k : K} (h : k ∈ t) (v : V) :
    (t.insert k v).entries.length = t.entries.length := by
  have hmem : k ∈ t.keys := AList.mem_keys.mp h
  rw [← length_keys, ← length_keys, AList.keys_insert, List.length_cons,
    List.length_erase_add_one hmem]

theorem length_insert_of_notMem {t : Table K V} {k : K} (h : k ∉ t) (v : V) :
    (t.insert k v).entries.length = t.entries.length + 1 := by
  have hmem : k ∉ t.keys := fun hmem => h (AList.mem_keys.mpr hmem)
  rw [← length_keys, ← length_keys, AList.keys_insert, List.length_cons, List.erase_of_not_mem hmem]

theorem length_erase_le (k : K) (t : Table K V) :
    (t.erase k).entries.length ≤ t.entries.length := by
  rw [← length_keys, ← length_keys, AList.keys_erase]
  exact List.length_erase_le

omit [DecidableEq K] in
theorem length_retain_le (p : K → V → Bool) (t : Table K V) :
    (retain p t).entries.length ≤ t.entries.length :=
  List.length_filter_le _ _

def keySet (t : Table K V) : Finset K := t.keys.toFinset

@[simp] theorem mem_keySet {t : Table K V} {k : K} : k ∈ t.keySet ↔ k ∈ t := by
  rw [keySet, List.mem_toFinset, AList.mem_keys]

theorem card_keySet (t : Table K V) : t.keySet.card = t.entries.length := by
  rw [keySet, List.toFinset_card_of_nodup t.keys_nodup, length_keys]

theorem length_erase {t : Table K V} {k : K} (h : k ∈ t) :
    (t.erase k).entries.length + 1 = t.entries.length := by
  rw [← length_keys, ← length_keys, AList.keys_erase]
  exact List.length_erase_add_one (AList.mem_keys.mp h)

/-- **The eviction loop makes room**: with as many rounds as entries, fewer than `bound` are left.
Each round that runs removes exactly one. -/
theorem length_evictTo_lt {rank : V → ℕ} {bound : ℕ} (hb : 0 < bound) (fuel : ℕ) (t : Table K V)
    (hf : t.entries.length ≤ fuel) : (evictTo rank bound fuel t).entries.length < bound := by
  induction fuel generalizing t with
  | zero => rw [evictTo]; omega
  | succ fuel ih =>
    rw [evictTo]
    split
    next hfull =>
      cases hc : coldest rank t with
      | none =>
        rw [coldest_eq_none_iff.mp hc] at hfull
        simp at hfull
        omega
      | some k =>
        have hlen := length_erase (mem_of_coldest hc)
        exact ih (t.erase k) (by omega)
    next hroom => omega

theorem evictTo_of_lt {rank : V → ℕ} {bound : ℕ} {t : Table K V} (fuel : ℕ)
    (h : t.entries.length < bound) : evictTo rank bound fuel t = t := by
  cases fuel with
  | zero => rfl
  | succ fuel =>
    rw [evictTo, if_neg]
    omega

/-- **A table that is exactly full loses its coldest entry and no other**: after one round there is
room, and the loop ends. -/
theorem evictTo_of_eq {rank : V → ℕ} {bound fuel : ℕ} {t : Table K V} {k : K}
    (h : t.entries.length = bound) (hf : 0 < fuel) (hc : coldest rank t = some k) :
    evictTo rank bound fuel t = t.erase k := by
  obtain ⟨fuel, rfl⟩ : ∃ n, fuel = n + 1 := ⟨fuel - 1, by omega⟩
  have hlen := length_erase (mem_of_coldest hc)
  rw [evictTo, if_pos (by omega), hc]
  apply evictTo_of_lt
  omega

/-! ## Repeated keys

Where a list of pairs is put into a table, a key that occurs twice keeps its last value. Which one
that is depends on the order, unless all its values agree. -/

/-- The value of `k` in a list of pairs: the last one, where it is repeated. -/
def lastValue (k : K) (pairs : List (K × V)) : Option V :=
  (pairs.filterMap fun p => if p.1 = k then some p.2 else none).getLast?

@[simp] theorem lastValue_nil (k : K) : lastValue k ([] : List (K × V)) = none := rfl

/-- One more pair at the end decides its own key and no other. -/
theorem lastValue_concat (k : K) (pairs : List (K × V)) (p : K × V) :
    lastValue k (pairs ++ [p]) = if p.1 = k then some p.2 else lastValue k pairs := by
  unfold lastValue
  rw [List.filterMap_append]
  by_cases h : p.1 = k
  · rw [if_pos h]
    simp [h]
  · rw [if_neg h]
    simp [h]

/-- The value that wins is one of those given under the key. -/
theorem mem_of_lastValue {k : K} {v : V} {pairs : List (K × V)}
    (h : lastValue k pairs = some v) : (k, v) ∈ pairs := by
  unfold lastValue at h
  obtain ⟨p, hp, hpv⟩ := List.mem_filterMap.mp (List.mem_of_getLast? h)
  split at hpv
  next hk =>
    rw [← hk, ← Option.some.inj hpv]
    exact hp
  next => exact absurd hpv (by simp)

/-- A key has no value exactly when it does not occur. -/
theorem lastValue_eq_none_iff {k : K} {pairs : List (K × V)} :
    lastValue k pairs = none ↔ ∀ p ∈ pairs, p.1 ≠ k := by
  unfold lastValue
  rw [List.getLast?_eq_none_iff, List.filterMap_eq_nil_iff]
  constructor
  · intro h p hp heq
    simpa [heq] using h p hp
  · intro h p hp
    simp [h p hp]

/-- Whatever occurs under the key comes last in some order, so each of its values can win. -/
theorem exists_perm_lastValue {k : K} {w : V} {pairs : List (K × V)} (hw : (k, w) ∈ pairs) :
    ∃ sent, sent.Perm pairs ∧ lastValue k sent = some w := by
  obtain ⟨before, after, rfl⟩ := List.append_of_mem hw
  refine ⟨(before ++ after) ++ [(k, w)], ?_, ?_⟩
  · exact (List.perm_append_singleton _ _).trans List.perm_middle.symm
  · rw [lastValue_concat, if_pos rfl]

/-- **A value that does not depend on the order**: the key occurs, and with this value only. One
direction puts a rival last; in the other every pair under the key has the one value there is. -/
theorem lastValue_of_perm_iff {k : K} {v : V} {pairs : List (K × V)} :
    (∀ sent, sent.Perm pairs → lastValue k sent = some v)
      ↔ (∃ w, (k, w) ∈ pairs) ∧ ∀ w, (k, w) ∈ pairs → w = v := by
  constructor
  · intro h
    refine ⟨⟨v, mem_of_lastValue (h pairs (List.Perm.refl pairs))⟩, ?_⟩
    intro w hw
    obtain ⟨sent, hperm, hlast⟩ := exists_perm_lastValue hw
    exact Option.some.inj (hlast.symm.trans (h sent hperm))
  · intro ⟨⟨w, hw⟩, hall⟩ sent hperm
    cases hlast : lastValue k sent with
    | none => exact absurd rfl (lastValue_eq_none_iff.mp hlast (k, w) (hperm.mem_iff.mpr hw))
    | some u => rw [hall u (hperm.mem_iff.mp (mem_of_lastValue hlast))]

end Table

end AuthnKit
