import AuthnKit.Foundation.Interleave
import AuthnKit.Mechanisms.Basic

/-!
# AuthnKit — requests interleaved over one credential cache

Any number of requests to one authenticator, interleaved at every access to its cache, to the
clocks and to the network. The validator and the provider answer arbitrarily; time passes
arbitrarily between any two operations; a request may be dropped at any of them.

* **`MechOp`** — the operations, and the handles that perform them.
* **`CacheWorld.exec`** — what each does to the shared cache.
* **`cacheMachine`** — the machine for an authenticator.
* **`entry_of_exec`** — the one fact about a step that provenance rests on: an entry after it
  is the one it wrote, or was there before.
* **`CacheSpec`** — what a mechanism must show of its requests; `CacheSpec.valid` turns it into
  an invariant of every run, in which each entry has its `Provenance`.

Cached principals are stamped with the task that wrote them; no operation can see the stamp.
-/

namespace AuthnKit

open Interleave

variable {U S : Type}

/-! ## Operations

What the mechanisms with a cache perform, each as one operation: the cache's lookups and writes, the
clocks, and what is asked of other services, which may answer anything. -/

inductive MechOp (U : Type) where
  | cacheGet (k : CacheKey)
  | cacheInsert (k : CacheKey) (user : U) (expiresIn : Option Duration)
  | systemNow
  | validate (key : String) (scope : Option String)
  | snapshot
  | requestAsync (request : TokenRequest)
  | verifyIdToken (token : String) (nonce : NonceCheck)

abbrev MechOp.Answer : MechOp U → Type
  | cacheGet _ => Option U
  | cacheInsert _ _ _ => Unit
  | systemNow => SystemTime
  | validate _ _ => Except AuthError IdentityClaims
  | snapshot => ProviderState
  | requestAsync _ => Except RequestTokenError TokenResponse
  | verifyIdToken _ _ => Except AuthError IdentityClaims

abbrev MechProg (U : Type) := Prog (MechOp U) MechOp.Answer

namespace MechProg

def ask (op : MechOp U) : MechProg U op.Answer := Prog.perform op

def platform (blake3 : Blake3) : Platform (MechProg U) where
  blake3 := blake3
  systemNow := ask .systemNow

def cache : CacheHandle (MechProg U) U where
  get k := ask (.cacheGet k)
  insert k user expiresIn := ask (.cacheInsert k user expiresIn)

def validator (name : String) : TokenValidator (MechProg U) where
  name := name
  validate key scope := ExceptT.mk (ask (.validate key scope))

def provider (config : OidcConfig) (lib : OpenIdConnect) : ProviderHandle (MechProg U) where
  config := config
  lib := lib
  snapshot := ask .snapshot
  verifyIdToken token nonce := ExceptT.mk (ask (.verifyIdToken token nonce))
  requestAsync request := ask (.requestAsync request)

end MechProg

/-! ## The shared world

The cache, with each principal stamped by the task that stored it, and the two clocks. The stamps
play no part in what is computed; they say who wrote an entry. -/

/-- A cached principal with the task that stored it. -/
structure Stamped (U : Type) where
  user : U
  writer : ℕ

structure CacheWorld (U : Type) where
  cache : CredentialCache (Stamped U)
  now : Instant
  wall : SystemTime

namespace CacheWorld

/-- What an operation of task `i` answers and leaves. Time may pass inside an insert, between
the two readings of the clock it takes. -/
def exec (i : ℕ) (w : CacheWorld U) : (op : MechOp U) → op.Answer → CacheWorld U → Prop
  | .cacheGet k, hit, w' =>
    hit = (w.cache.get w.now k).1.map (·.user) ∧ w' = { w with cache := (w.cache.get w.now k).2 }
  | .cacheInsert k user expiresIn, _, w' =>
    w.now ≤ w'.now ∧ w.cache.insert w.now w'.now k ⟨user, i⟩ expiresIn = ⟨w'.cache, false⟩
  | .systemNow, now, w' => now = w.wall ∧ w' = w
  | .validate _ _, _, w' => w' = w
  | .snapshot, _, w' => w' = w
  | .requestAsync _, _, w' => w' = w
  | .verifyIdToken _ _, _, w' => w' = w

/-- A task ends at an operation: it is dropped there, or the insert panics after the map was
pruned. -/
def abandon (i : ℕ) (w : CacheWorld U) (op : MechOp U) (w' : CacheWorld U) : Prop :=
  w' = w ∨ ∃ k user expiresIn, op = .cacheInsert k user expiresIn ∧ w.now ≤ w'.now
    ∧ w.cache.insert w.now w'.now k ⟨user, i⟩ expiresIn = ⟨w'.cache, true⟩

/-- Time passes; the wall clock may jump. -/
def elapse (w w' : CacheWorld U) : Prop := w.now ≤ w'.now ∧ w'.cache = w.cache

end CacheWorld

abbrev CacheEvent (Req U : Type) := Event Req (MechOp U) MechOp.Answer (CacheWorld U)

abbrev CacheView (Req U : Type) := View Req (MechOp U) MechOp.Answer (CacheWorld U)

/-- The requests of an authenticator with body `body`, over a cache with configuration
`config` that starts empty. -/
def cacheMachine {Req Res : Type} (config : CacheConfig) (body : Req → MechProg U Res) :
    Machine Req (MechOp U) MechOp.Answer (CacheWorld U) Res where
  body := body
  init w := w.cache = .new config
  exec i v op a w := CacheWorld.exec i v.world op a w
  abandon i v op w := CacheWorld.abandon i v.world op w
  env w w' := CacheWorld.elapse w w'

/-! ## What a step does to the cache

One lemma for each question the invariants ask of a step. They rest on the cache's own spec lemmas.
-/

namespace CacheWorld

variable {i : ℕ} {w w' : CacheWorld U} {op : MechOp U}

/-- **What an operation can do**: look up, write, or leave the world as it is. The answer of
everything else is arbitrary. -/
theorem exec_cases {a : op.Answer} (h : exec i w op a w') :
    (∃ k, op = .cacheGet k ∧ w' = { w with cache := (w.cache.get w.now k).2 })
      ∨ (∃ k user expiresIn, op = .cacheInsert k user expiresIn ∧ w.now ≤ w'.now
        ∧ w.cache.insert w.now w'.now k ⟨user, i⟩ expiresIn = ⟨w'.cache, false⟩)
      ∨ w' = w := by
  cases op with
  | cacheGet k => exact .inl ⟨k, rfl, h.2⟩
  | cacheInsert k user expiresIn => exact .inr (.inl ⟨k, user, expiresIn, rfl, h.1, h.2⟩)
  | systemNow => exact .inr (.inr h.2)
  | validate key scope => exact .inr (.inr h)
  | snapshot => exact .inr (.inr h)
  | requestAsync request => exact .inr (.inr h)
  | verifyIdToken token nonce => exact .inr (.inr h)

/-- A write keeps the configuration, whether it panics or not. -/
theorem config_of_insert {k : CacheKey} {value : Stamped U} {expiresIn : Option Duration}
    {panicked : Bool}
    (h : w.cache.insert w.now w'.now k value expiresIn = ⟨w'.cache, panicked⟩) :
    w'.cache.config = w.cache.config := by
  have hcfg := CredentialCache.insert_config w.cache w.now w'.now k value expiresIn
  rw [h] at hcfg
  exact hcfg

theorem config_of_exec {a : op.Answer} (h : exec i w op a w') :
    w'.cache.config = w.cache.config := by
  rcases exec_cases h with ⟨k, -, rfl⟩ | ⟨k, user, expiresIn, -, -, hins⟩ | rfl
  · exact CredentialCache.get_config _ _ _
  · exact config_of_insert hins
  · rfl

theorem config_of_abandon (h : abandon i w op w') : w'.cache.config = w.cache.config := by
  rcases h with rfl | ⟨k, user, expiresIn, _, _, hins⟩
  · rfl
  · exact config_of_insert hins

/-- An operation does not set back the clock; time may pass inside a write. -/
theorem now_le_of_exec {a : op.Answer} (h : exec i w op a w') : w.now ≤ w'.now := by
  rcases exec_cases h with ⟨k, -, rfl⟩ | ⟨k, user, expiresIn, -, hnow, -⟩ | rfl
  · exact Nat.le_refl _
  · exact hnow
  · exact Nat.le_refl _

theorem now_le_of_abandon (h : abandon i w op w') : w.now ≤ w'.now := by
  rcases h with rfl | ⟨k, user, expiresIn, _, hnow, _⟩
  · exact Nat.le_refl _
  · exact hnow

/-- **The one way into the cache.** An entry found after an operation is the one the operation
wrote, with the deadline it computed, or was there before (up to its recency). -/
theorem entry_of_exec {a : op.Answer} (h : exec i w op a w') {k : CacheKey}
    {e : Entry (Stamped U)} (he : w'.cache.entries.lookup k = some e) :
    (∃ e', w.cache.entries.lookup k = some e' ∧ e.SameAs e')
      ∨ ∃ user expiresIn, op = .cacheInsert k user expiresIn ∧ e.value = ⟨user, i⟩
        ∧ e.expiresAt.nanos
          = w'.now.nanos + (CredentialCache.ttl w.cache.config expiresIn).nanos
        ∧ (CredentialCache.ttl w.cache.config expiresIn).nanos ≠ 0
        ∧ w.cache.config.maxEntries ≠ 0 := by
  rcases exec_cases h with ⟨k', -, rfl⟩ | ⟨k', user, expiresIn, rfl, -, hins⟩ | rfl
  · exact .inl (CredentialCache.get_entries he)
  · have hcache : w'.cache = (w.cache.insert w.now w'.now k' ⟨user, i⟩ expiresIn).cache := by
      rw [hins]
    rw [hcache] at he
    -- the key was written, or it kept what it had
    rcases CredentialCache.insert_entries he with hold | ⟨rfl, hval, hadd, httl, hmax⟩
    · exact .inl ⟨e, hold, rfl, rfl⟩
    · exact .inr ⟨user, expiresIn, rfl, hval, Instant.checkedAdd_eq_some.mp hadd, httl, hmax⟩
  · exact .inl ⟨e, he, rfl, rfl⟩

/-- An abandoned operation writes nothing: what is found after it was there before. -/
theorem entry_of_abandon (h : abandon i w op w') {k : CacheKey} {e : Entry (Stamped U)}
    (he : w'.cache.entries.lookup k = some e) : w.cache.entries.lookup k = some e := by
  rcases h with rfl | ⟨k', user, expiresIn, _, _, hins⟩
  · exact he
  · have hpan : (w.cache.insert w.now w'.now k' ⟨user, i⟩ expiresIn).panicked = true := by
      rw [hins]
    have hcache : w'.cache = (w.cache.insert w.now w'.now k' ⟨user, i⟩ expiresIn).cache := by
      rw [hins]
    rw [hcache] at he
    exact CredentialCache.insert_entries_of_panicked hpan he

/-- A hit is served from an entry that has not expired. -/
theorem hit_of_exec {k : CacheKey} {user : U} (h : exec i w (.cacheGet k) (some user) w') :
    ∃ e, w.cache.entries.lookup k = some e ∧ w.now < e.expiresAt ∧ e.value.user = user := by
  obtain ⟨st, hst, rfl⟩ := Option.map_eq_some_iff.mp h.1.symm
  obtain ⟨e, he, hlt, rfl⟩ := CredentialCache.get_eq_some_iff.mp hst
  exact ⟨e, he, hlt, rfl⟩

/-- A miss leaves the cache as it was, but for the logical clock. -/
theorem miss_of_exec {k : CacheKey} (h : exec i w (.cacheGet k) none w') :
    w'.cache = { w.cache with clock := w'.cache.clock } := by
  obtain ⟨hnone, rfl⟩ := h
  have hget : (w.cache.get w.now k).1 = none := by
    cases hg : (w.cache.get w.now k).1 with
    | none => rfl
    | some st => rw [hg] at hnone; exact absurd hnone (by simp)
  exact CredentialCache.get_eq_none hget

/-- A write at a standing clock whose deadline fits it is a step of the machine, and its entry is
found afterwards. -/
theorem exists_exec_insert (i : ℕ) (w : CacheWorld U) (k : CacheKey) (user : U)
    {expiresIn : Option Duration} {deadline : Instant}
    (httl : (CredentialCache.ttl w.cache.config expiresIn).nanos ≠ 0)
    (hmax : w.cache.config.maxEntries ≠ 0)
    (hadd : w.now.checkedAdd (CredentialCache.ttl w.cache.config expiresIn) = some deadline) :
    ∃ w', exec i w (.cacheInsert k user expiresIn) () w' ∧ w'.now = w.now ∧ w'.wall = w.wall
      ∧ ∃ e, w'.cache.entries.lookup k = some e ∧ e.value = ⟨user, i⟩ ∧ e.expiresAt = deadline := by
  obtain ⟨hpan, hlook⟩ := CredentialCache.insert_lookup_self w.cache w.now k ⟨user, i⟩ httl hmax
    hadd
  refine ⟨{ w with cache := (w.cache.insert w.now w.now k ⟨user, i⟩ expiresIn).cache },
    ⟨Nat.le_refl _, ?_⟩, rfl, rfl, hlook⟩
  rw [← hpan]

end CacheWorld

/-- Time never runs backwards in a run, whatever its requests do. -/
theorem cacheMachine_advances {Req Res : Type} (config : CacheConfig)
    (body : Req → MechProg U Res) :
    (cacheMachine config body).Advances fun w w' => w.now ≤ w'.now where
  refl _ := Nat.le_refl _
  trans _ _ _ h₁ h₂ := Nat.le_trans h₁ h₂
  exec _ _ _ _ _ h := CacheWorld.now_le_of_exec h
  abandon _ _ _ _ h := CacheWorld.now_le_of_abandon h
  env _ _ h := h.1

/-- The states of the requests to an authenticator. -/
abbrev ServiceState (U S : Type) :=
  State (AuthContext S) (MechOp U) MechOp.Answer (CacheWorld U) (Except AuthError (Verdict U))

/-! ## Provenance

Every entry of the cache was written by an event of the run, and something stood behind that write.
What exactly is a parameter: each authenticator says what its writes rest on. -/

section Quiet

variable {Req : Type}

/-- The event left every entry of the cache as it was; only the logical clock may have moved. -/
def Quiet (ev : CacheEvent Req U) : Prop :=
  ev.post.cache = { ev.pre.cache with clock := ev.post.cache.clock }

/-- Everything task `i` did was quiet. -/
def OnlyQuiet (i : ℕ) (v : CacheView Req U) : Prop := ∀ ev ∈ v.history, ev.task = i → Quiet ev

/-- A task that has been quiet stays so while others move. -/
theorem OnlyQuiet.others {i : ℕ} {v v' : CacheView Req U} (h : OnlyQuiet i v)
    (ho : View.Others i v v') : OnlyQuiet i v' :=
  fun ev hev hi => h ev (ho.own hev hi) hi

/-- A task that has been quiet stays so after a quiet operation. -/
theorem OnlyQuiet.after {i : ℕ} {v : CacheView Req U} (h : OnlyQuiet i v) {ev : CacheEvent Req U}
    (hq : Quiet ev) : OnlyQuiet i (v.after ev) := by
  intro ev' hev' hi
  rcases List.mem_cons.mp hev' with rfl | hold
  · exact hq
  · exact h ev' hold hi

end Quiet

/-- What is to be shown of an authenticator over a cache: what its operations may be about,
what must stand behind a write, and what its results promise. -/
structure CacheSpec (Req U Res : Type) where
  config : CacheConfig
  body : Req → MechProg U Res
  About : Req → MechOp U → Prop
  /-- In this past, task `i` may store `user` under the key for that lifetime. -/
  Backed : List (CacheEvent Req U) → ℕ → CacheKey → U → Option Duration → Prop
  backed_append : ∀ {past i k user expiresIn}, Backed past i k user expiresIn →
    ∀ l, Backed (l ++ past) i k user expiresIn
  Post : Req → ℕ → CacheView Req U → Res → Prop

namespace CacheSpec

variable {Req Res : Type} (c : CacheSpec Req U Res)

def machine : Machine Req (MechOp U) MechOp.Answer (CacheWorld U) Res :=
  cacheMachine c.config c.body

/-- The write an entry comes from, and the deadline it set. -/
structure Written (history : List (CacheEvent Req U)) (k : CacheKey) (e : Entry (Stamped U))
    (write : CacheEvent Req U) (past : List (CacheEvent Req U)) (expiresIn : Option Duration) :
    Prop where
  happened : Happened history write past
  task : write.task = e.value.writer
  wrote : write.Did (.cacheInsert k e.value.user expiresIn) ()
  deadline : e.expiresAt.nanos
    = write.post.now.nanos + (CredentialCache.ttl c.config expiresIn).nanos
  ttl_ne : (CredentialCache.ttl c.config expiresIn).nanos ≠ 0
  maxEntries_ne : c.config.maxEntries ≠ 0

/-- **Provenance of an entry**: the write it comes from, and what stood behind it. -/
def Provenance (history : List (CacheEvent Req U)) (k : CacheKey) (e : Entry (Stamped U)) : Prop :=
  ∃ write past expiresIn, c.Written history k e write past expiresIn
    ∧ c.Backed past e.value.writer k e.value.user expiresIn

variable {c}

theorem Provenance.sameAs {history : List (CacheEvent Req U)} {k : CacheKey}
    {e e' : Entry (Stamped U)} (h : c.Provenance history k e') (hs : e.SameAs e') :
    c.Provenance history k e := by
  obtain ⟨hval, hexp⟩ := hs
  obtain ⟨write, past, expiresIn, ⟨happened, task, wrote, deadline, httl, hmax⟩, hb⟩ := h
  rw [← hval] at task wrote hb
  rw [← hexp] at deadline
  exact ⟨write, past, expiresIn, ⟨happened, task, wrote, deadline, httl, hmax⟩, hb⟩

theorem Provenance.append {history : List (CacheEvent Req U)} {k : CacheKey}
    {e : Entry (Stamped U)} (h : c.Provenance history k e) (l : List (CacheEvent Req U)) :
    c.Provenance (l ++ history) k e := by
  obtain ⟨write, past, expiresIn, ⟨happened, task, wrote, deadline, httl, hmax⟩, hb⟩ := h
  exact ⟨write, past, expiresIn, ⟨happened.append l, task, wrote, deadline, httl, hmax⟩, hb⟩

variable (c)

/-- The invariant of every run. -/
structure Inv (v : CacheView Req U) : Prop where
  config : v.world.cache.config = c.config
  entries : ∀ k e, v.world.cache.entries.lookup k = some e → c.Provenance v.history k e
  about : ∀ ev ∈ v.history, c.About ev.req ev.op
  /-- A hit was served from an entry with a provenance before it, within its deadline. -/
  served : ∀ ev past, Happened v.history ev past → ∀ k user,
    ev.Did (.cacheGet k) (some user) →
    ∃ e, ev.pre.cache.entries.lookup k = some e ∧ c.Provenance past k e
      ∧ ev.pre.now < e.expiresAt ∧ e.value.user = user

variable {c}

/-- **One operation keeps the invariant**, if it is about the request and, when it writes, is
backed: the new entry then has its provenance, and the others keep theirs. -/
theorem Inv.after {v : CacheView Req U} (hv : c.Inv v) {i : ℕ} {r : Req} {op : MechOp U}
    {a : op.Answer} {w : CacheWorld U} (hx : CacheWorld.exec i v.world op a w)
    (habout : c.About r op)
    (hwrite : ∀ k user expiresIn, op = .cacheInsert k user expiresIn →
      c.Backed v.history i k user expiresIn) :
    c.Inv (v.after ⟨i, r, op, a, v.world, w⟩) := by
  refine ⟨?_, ?_, ?_, ?_⟩
  · exact (CacheWorld.config_of_exec hx).trans hv.config
  · intro k e he
    rcases CacheWorld.entry_of_exec hx he with
      ⟨e', he', hs⟩ | ⟨user, expiresIn, rfl, hval, hdead, httl, hmax⟩
    · exact ((hv.entries k e' he').sameAs hs).append [_]
    · have hcfg := hv.config
      rw [hcfg] at hdead httl hmax
      refine ⟨_, v.history, expiresIn, ⟨⟨[], rfl⟩, ?_, ?_, hdead, httl, hmax⟩, ?_⟩
      · rw [hval]
      · rw [hval]; rfl
      · rw [hval]; exact hwrite k user expiresIn rfl
  · intro ev hev
    rcases List.mem_cons.mp hev with rfl | hold
    · exact habout
    · exact hv.about ev hold
  · intro ev past hev k user hdid
    rcases happened_cons_iff.mp hev with ⟨rfl, rfl⟩ | hold
    · -- the new event is the hit: its entry was in the cache
      cases hdid
      obtain ⟨e, he, hlt, huser⟩ := CacheWorld.hit_of_exec hx
      exact ⟨e, he, hv.entries k e he, hlt, huser⟩
    · exact hv.served ev past hold k user hdid

/-- Nothing else moves the invariant: dropping a task, or time passing, adds no entry. -/
theorem Inv.withWorld {v : CacheView Req U} (hv : c.Inv v) {w : CacheWorld U}
    (hcfg : w.cache.config = v.world.cache.config)
    (hentries : ∀ k e, w.cache.entries.lookup k = some e →
      v.world.cache.entries.lookup k = some e) : c.Inv (v.withWorld w) :=
  ⟨hcfg.trans hv.config, fun k e he => hv.entries k e (hentries k e he), hv.about, hv.served⟩

/-! ## The contract

The invariant as a contract of tasks, with the rules by which an authenticator's program is shown to
keep to it. -/

variable (c)

def contract : Contract c.machine where
  inv := c.Inv
  rely _ _ _ := True
  pre _ _ _ _ := True
  post r i v res := c.Post r i v res

/-- Task `i`, working for `r`, is sound from `v` on. -/
def Sound (r : Req) (i : ℕ) (v : CacheView Req U) (p : MechProg U Res) : Prop :=
  c.contract.Sound (c.Post r i) r i v p

variable {c}

/-- **The rule for a result**: it is as promised whatever the others do after it. -/
theorem sound_ret {r : Req} {i : ℕ} {v : CacheView Req U} {res : Res}
    (h : ∀ v', View.Others i v v' → c.Post r i v' res) : c.Sound r i v (.ret res) :=
  fun v' hv' => h v' hv'.others

/-- **The rule for an operation**: what it is about, what backs it if it writes, and that the
continuation is sound after every answer. -/
theorem sound_call {r : Req} {i : ℕ} {v : CacheView Req U} {op : MechOp U}
    {k : op.Answer → MechProg U Res} (habout : c.About r op)
    (hwrite : ∀ ck user expiresIn, op = .cacheInsert ck user expiresIn →
      c.Backed v.history i ck user expiresIn)
    (hk : ∀ v', View.Others i v v' → c.Inv v' → ∀ a w, CacheWorld.exec i v'.world op a w →
      c.Sound r i (v'.after ⟨i, r, op, a, v'.world, w⟩) (k a)) :
    c.Sound r i v (.call op k) := by
  intro v' hv'
  refine ⟨trivial, ?_, ?_⟩
  · intro a w hx
    refine ⟨⟨?_, fun _ _ => trivial⟩, hk v' hv'.others hv'.inv a w hx⟩
    refine Inv.after hv'.inv hx habout ?_
    intro ck user expiresIn hop
    obtain ⟨later, hlater, _⟩ := hv'.others
    rw [hlater]
    exact c.backed_append (hwrite ck user expiresIn hop) later
  · intro w hx
    exact ⟨Inv.withWorld hv'.inv (CacheWorld.config_of_abandon hx)
      (fun ck e he => CacheWorld.entry_of_abandon hx he), fun _ _ => trivial⟩

/-- **The contract holds of every run** once each request is sound from where it starts. No
authenticator repeats the argument about other tasks. -/
theorem valid (h : ∀ r i v, OnlyQuiet i v → c.Sound r i v (c.body r)) : c.contract.Valid where
  refl _ _ := trivial
  trans _ _ _ _ _ _ := trivial
  init w hw := by
    have hcache : w.cache = .new c.config := hw
    refine ⟨by rw [hcache]; rfl, ?_, by simp, ?_⟩
    · intro k e he
      rw [hcache] at he
      exact absurd he (by simp [CredentialCache.new])
    · rintro ev past ⟨later, h⟩
      exact absurd h (by simp)
  env v w hv hw := by
    obtain ⟨_, hcache⟩ := (hw : CacheWorld.elapse v.world w)
    refine ⟨Inv.withWorld hv (by rw [hcache]) ?_, fun _ => trivial⟩
    intro k e he
    rwa [hcache] at he
  spawn r i v _ hfresh := h r i v fun ev hev hi => absurd hi (hfresh ev hev)

end CacheSpec

end AuthnKit
