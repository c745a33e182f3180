import AuthnKit.Mechanisms.CacheRuns

/-!
# AuthnKit — runs of the API-token authenticator

Requests to an `ApiTokenAuthenticator` with a fallback validator, interleaved over its cache
(`Mechanisms.CacheRuns`).

* **`body_eq`** — the authenticator, unfolded to its operations.
* **`Backed`** — what stands behind a write: a successful validation by the same task, and the
  reading of the wall clock the lifetime was computed from.
* **`spec_valid`** — in every run every entry was written so, and every operation of a request
  is about the key and the scope that were presented.
* **`validates_once`** — the answer behind an entry is the only one its request got.
-/

namespace AuthnKit

open Interleave

variable {U S : Type}

/-- How an API-token authenticator with a fallback validator is configured. -/
structure ApiTokenService where
  blake3 : Blake3
  keyPrefix : String
  keyPrefix_ne : keyPrefix ≠ ""
  tokens : List StaticToken
  validatorName : String
  maxCacheTtl : Duration
  cacheConfig : CacheConfig

namespace ApiTokenService

def authenticator (c : ApiTokenService) : ApiTokenAuthenticator (MechProg U) U where
  keyPrefix := c.keyPrefix
  tokens := c.tokens
  fallback := some (MechProg.validator c.validatorName)
  cache := MechProg.cache
  maxCacheTtl := c.maxCacheTtl
  keyPrefix_ne := c.keyPrefix_ne

variable (c : ApiTokenService)

def keyOf (credential : Credential) : Option String := (c.authenticator (U := Unit)).keyOf credential

def matched (scope : Option String) (key : String) : Option StaticToken :=
  (c.authenticator (U := Unit)).matched scope key

/-- The key the cache is read and written under. -/
def cacheKey (scope : Option String) (key : String) : CacheKey :=
  CredentialCache.key c.blake3 scope c.validatorName "" key

variable [Principal U] [AuthScope S]

def body (ctx : AuthContext S) : MechProg U (Except AuthError (Verdict U)) :=
  (c.authenticator.authenticate (MechProg.platform c.blake3) ctx).run

/-- Requests to the authenticator, interleaved over its cache. -/
def machine : Machine (AuthContext S) (MechOp U) MechOp.Answer (CacheWorld U)
    (Except AuthError (Verdict U)) :=
  cacheMachine c.cacheConfig c.body

/-! ## The authenticator as operations

Over the operations of a run the authenticator is one program: its reads, writes, validations and
looks at the clock, in the order of the source. -/

/-- The last step: the claims converted and stored for `ttl`. -/
def store (scope : Option String) (key : String) (claims : IdentityClaims)
    (ttl : Option Duration) : MechProg U (Except AuthError (Verdict U)) :=
  match (principalFrom "api token principal could not be converted" claims : Except AuthError U) with
  | .error e => .ret (.error e)
  | .ok user => .call (.cacheInsert (c.cacheKey scope key) user ttl) fun _ =>
      .ret (.ok (.authenticated user))

/-- The lifetime handed to the cache for an expiry, at a reading of the wall clock. -/
def lifetime (expiresAt now : SystemTime) : Option Duration :=
  (expiresAt.durationSince now).map fun remaining => remaining.min c.maxCacheTtl

/-- After a successful validation: the clock is read when an expiry was reported. -/
def validated (scope : Option String) (key : String) (claims : IdentityClaims) :
    MechProg U (Except AuthError (Verdict U)) :=
  match claims.expiresAt with
  | none => c.store scope key claims none
  | some expiresAt => .call .systemNow fun now =>
      c.store scope key claims (c.lifetime expiresAt now)

/-- A key that matches no static token: the cache, then the validator. -/
def remote (scope : Option String) (key : String) : MechProg U (Except AuthError (Verdict U)) :=
  .call (.cacheGet (c.cacheKey scope key)) fun hit => match hit with
    | some user => .ret (.ok (.authenticated user))
    | none => .call (.validate key scope) fun answer => match answer with
      | .error e => .ret (.error e)
      | .ok claims => c.validated scope key claims

/-- The last step, unfolded: the claims are converted, and stored if that succeeds. -/
theorem run_store (scope : Option String) (key : String) (claims : IdentityClaims)
    (ttl : Option Duration) :
    ((do
        let user ← ExceptT.mk (pure
          (principalFrom "api token principal could not be converted" claims))
        (c.authenticator (U := U)).cache.insert (c.cacheKey scope key) user ttl
        pure user : ExceptT AuthError (MechProg U) U)
      >>= fun user => pure (Verdict.authenticated user)).run = c.store scope key claims ttl := by
  unfold store
  rw [bind_assoc, Prog.run_mk_bind]
  cases (principalFrom "api token principal could not be converted" claims
    : Except AuthError U) <;> rfl

/-- **The authenticator, unfolded**: a credential without a key is declined, a key on the list is
answered from it, and any other one goes to the cache and to the validator. -/
theorem body_eq (ctx : AuthContext S) :
    (c.body ctx : MechProg U _)
      = match c.keyOf ctx.credential with
        | none => .ret (.ok .notApplicable)
        | some key => match c.matched (AuthScope.cacheDiscriminator ctx.scope) key with
          | some token => .ret ((principalFrom "static token principal could not be converted"
              token.claims).map .authenticated)
          | none => c.remote (AuthScope.cacheDiscriminator ctx.scope) key := by
  have hkey : (c.authenticator (U := U)).keyOf ctx.credential = c.keyOf ctx.credential := rfl
  unfold body ApiTokenAuthenticator.authenticate
  rw [hkey]
  cases c.keyOf ctx.credential with
  | none => rfl
  | some key =>
    have hmatched : (c.authenticator (U := U)).matched (AuthScope.cacheDiscriminator ctx.scope) key
        = c.matched (AuthScope.cacheDiscriminator ctx.scope) key := rfl
    simp only
    unfold ApiTokenAuthenticator.resolve
    rw [hmatched]
    cases c.matched (AuthScope.cacheDiscriminator ctx.scope) key with
    | some token =>
      simp only
      rw [Prog.run_mk_bind]
      cases (principalFrom "static token principal could not be converted" token.claims
        : Except AuthError U) <;> rfl
    | none =>
      -- from here on both sides perform the same operations; only pure steps differ
      refine Prog.call_congr fun hit => ?_
      cases hit with
      | some user => rfl
      | none =>
        refine Prog.call_congr fun answer => ?_
        cases answer with
        | error e => rfl
        | ok claims =>
          rcases claims with ⟨subject, email, preferred, name, clientId, oauthScope, expiresAt, source,
            extra⟩
          cases expiresAt with
          | none => exact c.run_store _ key _ none
          | some expiresAt => exact Prog.call_congr fun now => c.run_store _ key _ _

/-! ## What stands behind a write

What an entry of the cache rests on: the task that wrote it had a validation of its own succeed, for
a key of this digest on this scope, and took the lifetime from what was reported. -/

/-- The lifetime task `i` hands to the cache for an expiry comes from its reading of the wall
clock; without an expiry there is none. -/
def LifetimeFrom (past : List (CacheEvent (AuthContext S) U)) (i : ℕ)
    (expiresAt : Option SystemTime) (expiresIn : Option Duration) : Prop :=
  match expiresAt with
  | none => expiresIn = none
  | some e => ∃ reading ∈ past, reading.task = i
      ∧ ∃ now, reading.Did .systemNow now ∧ expiresIn = c.lifetime e now

/-- A successful validation, by the same task, of a key that the cache key is about. -/
structure Backed (past : List (CacheEvent (AuthContext S) U)) (i : ℕ) (k : CacheKey) (user : U)
    (expiresIn : Option Duration) (validation : CacheEvent (AuthContext S) U) (key : String)
    (scope : Option String) (claims : IdentityClaims) : Prop where
  mem : validation ∈ past
  task : validation.task = i
  answer : validation.Did (.validate key scope) (.ok claims)
  converted : Principal.tryFrom claims = .ok user
  key_eq : k = c.cacheKey scope key
  lifetime : c.LifetimeFrom past i claims.expiresAt expiresIn

omit [Principal U] [AuthScope S] in
/-- Where a lifetime comes from does not change as more happens. -/
theorem LifetimeFrom.append {past : List (CacheEvent (AuthContext S) U)} {i : ℕ}
    {expiresAt : Option SystemTime} {expiresIn : Option Duration}
    (h : c.LifetimeFrom past i expiresAt expiresIn) (l : List (CacheEvent (AuthContext S) U)) :
    c.LifetimeFrom (l ++ past) i expiresAt expiresIn := by
  cases expiresAt with
  | none => exact h
  | some e =>
    obtain ⟨reading, hmem, htask, now, hdid, hlife⟩ := h
    exact ⟨reading, List.mem_append_right l hmem, htask, now, hdid, hlife⟩

/-- The operation is about the key and the scope the request presented. -/
def About (r : AuthContext S) : MechOp U → Prop
  | .cacheGet k => ∃ key, c.keyOf r.credential = some key
      ∧ k = c.cacheKey (AuthScope.cacheDiscriminator r.scope) key
  | .validate key scope =>
    c.keyOf r.credential = some key ∧ scope = AuthScope.cacheDiscriminator r.scope
  | _ => True

/-- What a request may return: without a static match, a principal whose claims some validation
of its scope gave for a key of the same digest; and a failure changed nothing. -/
def Post (r : AuthContext S) (i : ℕ) (v : CacheView (AuthContext S) U) :
    Except AuthError (Verdict U) → Prop
  | .ok (.authenticated user) => ∀ key, c.keyOf r.credential = some key →
      c.matched (AuthScope.cacheDiscriminator r.scope) key = none →
      ∃ validation ∈ v.history, ∃ key' claims,
        validation.Did (.validate key' (AuthScope.cacheDiscriminator r.scope)) (.ok claims)
        ∧ c.blake3 key'.toUTF8 = c.blake3 key.toUTF8 ∧ Principal.tryFrom claims = .ok user
  | .ok .notApplicable => True
  | .error _ => OnlyQuiet i v

def spec : CacheSpec (AuthContext S) U (Except AuthError (Verdict U)) where
  config := c.cacheConfig
  body := c.body
  About := c.About
  Backed past i k user expiresIn := ∃ validation key scope claims,
    c.Backed past i k user expiresIn validation key scope claims
  backed_append := by
    rintro past i k user expiresIn ⟨validation, key, scope, claims, h⟩ l
    exact ⟨validation, key, scope, claims, List.mem_append_right l h.mem, h.task, h.answer,
      h.converted, h.key_eq, h.lifetime.append c l⟩
  Post := c.Post

/-! ## Every request is sound

The contract of a cache with provenance, for this authenticator. The program is walked through from
the back, one of its parts at a time. -/

/-- Two equal cache keys are about the same scope and about secrets with the same digest, as they
are made of these. -/
theorem cacheKey_inj {scope scope' : Option String} {key key' : String}
    (h : c.cacheKey scope key = c.cacheKey scope' key') :
    scope = scope' ∧ c.blake3 key.toUTF8 = c.blake3 key'.toUTF8 :=
  ⟨congrArg CacheKey.scope h, congrArg CacheKey.digest h⟩

/-- A request that goes on after its own successful validation. -/
structure Validating (r : AuthContext S) (i : ℕ) (v : CacheView (AuthContext S) U) (key : String)
    (claims : IdentityClaims) : Prop where
  key_eq : c.keyOf r.credential = some key
  quiet : OnlyQuiet i v
  validated : ∃ validation ∈ v.history, validation.task = i
    ∧ validation.Did (.validate key (AuthScope.cacheDiscriminator r.scope)) (.ok claims)

omit [Principal U] in
/-- A request that has had its validation keeps it while others move. -/
theorem Validating.others {r : AuthContext S} {i : ℕ} {v v' : CacheView (AuthContext S) U}
    {key : String} {claims : IdentityClaims} (h : c.Validating r i v key claims)
    (ho : View.Others i v v') : c.Validating r i v' key claims := by
  obtain ⟨hkey, hquiet, validation, hmem, htask, hdid⟩ := h
  exact ⟨hkey, hquiet.others ho, validation, ho.mem hmem, htask, hdid⟩

/-- The last step: what is written is backed by the validation, and what is returned comes from it.
-/
theorem sound_store {r : AuthContext S} {i : ℕ} {v : CacheView (AuthContext S) U} {key : String}
    {claims : IdentityClaims} {ttl : Option Duration} (h : c.Validating r i v key claims)
    (httl : c.LifetimeFrom v.history i claims.expiresAt ttl) :
    c.spec.Sound r i v (c.store (AuthScope.cacheDiscriminator r.scope) key claims ttl) := by
  unfold store
  cases hconv : (principalFrom "api token principal could not be converted" claims
      : Except AuthError U) with
  | error e => exact CacheSpec.sound_ret fun v' ho => h.quiet.others ho
  | ok user =>
    have hfrom : Principal.tryFrom claims = .ok user := principalFrom_eq_ok.mp hconv
    obtain ⟨validation, hmem, htask, hdid⟩ := h.validated
    refine CacheSpec.sound_call trivial ?_ ?_
    · intro ck user' expiresIn hop
      cases hop
      exact ⟨validation, key, _, claims, hmem, htask, hdid, hfrom, rfl, httl⟩
    · intro v₁ ho₁ _ a w _
      refine CacheSpec.sound_ret ?_
      intro v₂ ho₂ key₂ hkey₂ _
      have hsame : key = key₂ := by
        rw [h.key_eq] at hkey₂
        exact Option.some.inj hkey₂
      subst hsame
      exact ⟨validation, ho₂.mem (List.mem_cons_of_mem _ (ho₁.mem hmem)), key, claims, hdid, rfl,
        hfrom⟩

/-- After a successful validation the lifetime comes from its expiry, if it reported one, and from a
reading of the wall clock. -/
theorem sound_validated {r : AuthContext S} {i : ℕ} {v : CacheView (AuthContext S) U}
    {key : String} {claims : IdentityClaims} (h : c.Validating r i v key claims) :
    c.spec.Sound r i v (c.validated (AuthScope.cacheDiscriminator r.scope) key claims) := by
  unfold validated
  cases hexp : claims.expiresAt with
  | none =>
    refine c.sound_store h ?_
    rw [hexp]
    rfl
  | some e =>
    refine CacheSpec.sound_call trivial (by intro _ _ _ hop; cases hop) ?_
    intro v' ho _ now w hx
    obtain ⟨hkey, hquiet, validation, hmem, htask, hdid⟩ := h.others c ho
    -- the reading of the clock is the event just added
    refine c.sound_store ⟨hkey, hquiet.after ?_, validation, List.mem_cons_of_mem _ hmem, htask,
      hdid⟩ ?_
    · obtain ⟨_, rfl⟩ := hx
      rfl
    · rw [hexp]
      exact ⟨_, List.mem_cons_self, rfl, now, rfl, rfl⟩

/-- A key that matches no static token: a hit is returned with the provenance of its entry, and
after a miss the validator is asked. -/
theorem sound_remote {r : AuthContext S} {i : ℕ} {v : CacheView (AuthContext S) U} {key : String}
    (hkey : c.keyOf r.credential = some key) (hquiet : OnlyQuiet i v) :
    c.spec.Sound r i v (c.remote (AuthScope.cacheDiscriminator r.scope) key) := by
  unfold remote
  refine CacheSpec.sound_call ⟨key, hkey, rfl⟩ (by intro _ _ _ hop; cases hop) ?_
  intro v₁ ho₁ hinv₁ hit w₁ hx₁
  cases hit with
  | some user =>
    -- served from the cache: the entry's provenance names the validation
    refine CacheSpec.sound_ret ?_
    intro v' ho' key₂ hkey₂ _
    obtain ⟨e, he, _, rfl⟩ := CacheWorld.hit_of_exec hx₁
    obtain ⟨_, past, _, hw, validation, key', scope, claims, hb⟩ := hinv₁.entries _ _ he
    have hsame : key = key₂ := by
      rw [hkey] at hkey₂
      exact Option.some.inj hkey₂
    subst hsame
    obtain ⟨hscope, hdigest⟩ := c.cacheKey_inj hb.key_eq
    have hmem : validation ∈ v₁.history := hw.happened.past_mem hb.mem
    exact ⟨validation, ho'.mem (List.mem_cons_of_mem _ hmem), key', claims, hscope ▸ hb.answer,
      hdigest.symm, hb.converted⟩
  | none =>
    have hquiet₁ := (hquiet.others ho₁).after (CacheWorld.miss_of_exec hx₁
      : Quiet ⟨i, r, .cacheGet (c.cacheKey (AuthScope.cacheDiscriminator r.scope) key), none,
          v₁.world, w₁⟩)
    refine CacheSpec.sound_call ⟨hkey, rfl⟩ (by intro _ _ _ hop; cases hop) ?_
    intro v₂ ho₂ _ answer w₂ hx₂
    have hquiet₂ := (hquiet₁.others ho₂).after (show Quiet
        ⟨i, r, .validate key (AuthScope.cacheDiscriminator r.scope), answer, v₂.world, w₂⟩ by
      cases hx₂; rfl)
    cases answer with
    | error e => exact CacheSpec.sound_ret fun v' ho' => hquiet₂.others ho'
    | ok claims => exact c.sound_validated ⟨hkey, hquiet₂, _, List.mem_cons_self, rfl, rfl⟩

/-- **The contract holds of every run**: each request is sound, whatever the others do to the cache.
-/
theorem spec_valid : (c.spec (U := U) (S := S)).contract.Valid := by
  apply CacheSpec.valid
  intro r i v hquiet
  show c.spec.Sound r i v (c.body r)
  rw [body_eq]
  cases hkey : c.keyOf r.credential with
  | none => exact CacheSpec.sound_ret fun _ _ => trivial
  | some key =>
    simp only
    cases hmatched : c.matched (AuthScope.cacheDiscriminator r.scope) key with
    | none => exact c.sound_remote hkey hquiet
    | some token =>
      refine CacheSpec.sound_ret ?_
      intro v' ho'
      cases (principalFrom "static token principal could not be converted" token.claims
          : Except AuthError U) with
      | error e => exact hquiet.others ho'
      | ok user =>
        intro key₂ hkey₂ hnone
        rw [hkey] at hkey₂
        rw [← Option.some.inj hkey₂, hmatched] at hnone
        exact absurd hnone (by simp)

/-! ## A request validates at most once

That is a property of the program, and bounds what a single request can cost the validator. -/

def IsValidate : MechOp U → Prop
  | .validate _ _ => True
  | _ => False

omit [AuthScope S] in
theorem atMost_store (scope : Option String) (key : String) (claims : IdentityClaims)
    (ttl : Option Duration) :
    Prog.AtMost IsValidate 0 (c.store scope key claims ttl : MechProg U _) := by
  unfold store
  cases (principalFrom "api token principal could not be converted" claims : Except AuthError U) with
  | error e => exact .ret 0 _
  | ok user => exact .skip (by simp [IsValidate]) fun _ => .ret 0 _

omit [AuthScope S] in
theorem atMost_validated (scope : Option String) (key : String) (claims : IdentityClaims) :
    Prog.AtMost IsValidate 0 (c.validated scope key claims : MechProg U _) := by
  unfold validated
  cases claims.expiresAt with
  | none => exact c.atMost_store scope key claims none
  | some e => exact .skip (by simp [IsValidate]) fun now => c.atMost_store scope key claims _

/-- The whole program validates once, at most. -/
theorem atMost_body (ctx : AuthContext S) :
    Prog.AtMost IsValidate 1 (c.body ctx : MechProg U _) := by
  rw [body_eq]
  cases c.keyOf ctx.credential with
  | none => exact .ret 1 _
  | some key =>
    simp only
    cases c.matched (AuthScope.cacheDiscriminator ctx.scope) key with
    | some token => exact .ret 1 _
    | none =>
      refine .skip (by simp [IsValidate]) fun hit => ?_
      cases hit with
      | some user => exact .ret 1 _
      | none =>
        refine .spend fun answer => ?_
        cases answer with
        | error e => exact .ret 0 _
        | ok claims => exact c.atMost_validated _ key claims

/-- **A request validates at most once**: two validations of one request are the same operation,
with the same answer. -/
theorem validates_once {r : AuthContext S} {tr : List (Σ op : MechOp U, op.Answer)}
    {p : MechProg U (Except AuthError (Verdict U))} (h : Prog.Leads (c.body r) tr p)
    {key key' : String} {scope scope' : Option String} {a a' : Except AuthError IdentityClaims}
    (ha : ⟨.validate key scope, a⟩ ∈ tr) (ha' : ⟨.validate key' scope', a'⟩ ∈ tr) :
    (⟨.validate key scope, a⟩ : Σ op : MechOp U, op.Answer) = ⟨.validate key' scope', a'⟩ :=
  (c.atMost_body r).unique h ha ha' trivial trivial

end ApiTokenService

end AuthnKit
