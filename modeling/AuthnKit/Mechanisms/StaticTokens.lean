import AuthnKit.Mechanisms.ApiTokenRuns

/-!
# AuthnKit — static tokens and their scopes

What a configured token list promises of the keys on it, compared with what an
`ApiTokenAuthenticator` built from the list does. The validator and the cache answer
arbitrarily, so a statement about every trace covers each of their behaviours.

* **`matched_eq_find`** — the token a key authenticates as, in terms of the configured list.
* **`deployed_run`** — the authenticator with or without a validator, unfolded.
* **`confined_iff`** — the promise is kept exactly when no key of the list meets the validator.
-/

namespace AuthnKit

variable {U S : Type}

/-! ## The configured list

What an operator writes is the list of entries, so the promise is stated over these. The tokens the
authenticator holds are made of them one by one. -/

namespace StaticTokenSpec

/-- Whether an entry may be used for a scope's discriminator. -/
def permits (spec : StaticTokenSpec) : Option String → Bool
  | none => spec.scopes.isNone
  | some scope => spec.scopes.all fun allowed => scope ∈ allowed

def identity (spec : StaticTokenSpec) : IdentityClaims :=
  { subject := some spec.principal
    preferredUsername := some spec.principal
    email := some (spec.email.getD spec.principal)
    source := .staticToken }

/-- The first entry with this secret that may be used for the scope. -/
def find (specs : List StaticTokenSpec) (scope : Option String) (key : String) :
    Option StaticTokenSpec :=
  specs.find? fun spec => spec.token == key && spec.permits scope

end StaticTokenSpec

/-- The token is the one of the list entry. -/
def StaticToken.Of (spec : StaticTokenSpec) (token : StaticToken) : Prop :=
  StaticToken.ofSpec spec = .ok token

namespace StaticToken.Of

variable {spec : StaticTokenSpec} {token : StaticToken}

/-- The token of an entry has its secret, its identity and its scopes. -/
theorem fields (h : Of spec token) :
    token.secret = spec.token ∧ token.claims = spec.identity
      ∧ token.scopes = spec.scopes.map List.toFinset := by
  unfold Of ofSpec at h
  split at h
  next => exact absurd h (by simp)
  next =>
    have htoken := Except.ok.inj h
    subst htoken
    exact ⟨rfl, rfl, rfl⟩

theorem permits_eq (h : Of spec token) (scope : Option String) :
    token.permits scope = spec.permits scope := by
  have hscopes := h.fields.2.2
  unfold StaticToken.permits
  rw [hscopes]
  cases hs : spec.scopes with
  | none => cases scope <;> simp [StaticTokenSpec.permits, hs]
  | some allowed => cases scope <;> simp [StaticTokenSpec.permits, hs]

/-- A key matches a token when it is the secret of the entry. -/
theorem isMatch_eq (h : Of spec token) (key : String) :
    token.isMatch key = (spec.token == key) := by
  rw [Bool.eq_iff_iff, StaticToken.isMatch_iff, beq_iff_eq, h.fields.1]
  exact eq_comm

end StaticToken.Of

namespace ApiTokenAuthenticator

variable {m : Type → Type} {cache : CacheHandle m U} {keyPrefix : String}
  {specs : List StaticTokenSpec} {a : ApiTokenAuthenticator m U}

/-- Tokens that were made of a list of entries are theirs, in order. -/
theorem forall₂_of_mapM {tokens : List StaticToken}
    (h : specs.mapM StaticToken.ofSpec = .ok tokens) :
    List.Forall₂ StaticToken.Of specs tokens := by
  induction specs generalizing tokens with
  | nil =>
    have hnil : tokens = [] := (Except.ok.inj h).symm
    rw [hnil]
    exact .nil
  | cons spec rest ih =>
    rw [List.mapM_cons] at h
    cases hs : StaticToken.ofSpec spec with
    | error e =>
      rw [hs] at h
      exact absurd h (by simp [bind, Except.bind])
    | ok token =>
      cases hr : rest.mapM StaticToken.ofSpec with
      | error e =>
        rw [hs, hr] at h
        exact absurd h (by simp [bind, Except.bind])
      | ok tokens' =>
        rw [hs, hr] at h
        have hcons : tokens = token :: tokens' := (Except.ok.inj h).symm
        rw [hcons]
        exact .cons hs (ih hr)

/-- **What construction accepts**: a prefix, one token an entry, and no validator yet. -/
theorem of_new (h : new cache keyPrefix specs = .ok a) :
    a.keyPrefix = keyPrefix ∧ a.cache = cache ∧ a.fallback = none
      ∧ List.Forall₂ StaticToken.Of specs a.tokens := by
  unfold new at h
  split at h
  next => exact absurd h (by simp)
  next =>
    cases htokens : specs.mapM StaticToken.ofSpec with
    | error e =>
      rw [htokens] at h
      exact absurd h (by simp [bind, Except.bind])
    | ok tokens =>
      rw [htokens] at h
      have ha := Except.ok.inj h
      subst ha
      exact ⟨rfl, rfl, rfl, forall₂_of_mapM htokens⟩

/-- **The matching token is that of the first entry with the secret that permits the scope.**
Induction on the list; each token answers both tests as its entry does. -/
theorem matched_eq_find {tokens : List StaticToken} (h : List.Forall₂ StaticToken.Of specs tokens)
    (scope : Option String) (key : String) :
    (tokens.find? fun candidate => candidate.permits scope && candidate.isMatch key).map (·.claims)
      = (StaticTokenSpec.find specs scope key).map (·.identity) := by
  induction h with
  | nil => rfl
  | @cons spec token rest tokens hspec _ ih =>
    have htest : (token.permits scope && token.isMatch key)
        = (spec.token == key && spec.permits scope) := by
      rw [hspec.permits_eq, hspec.isMatch_eq, Bool.and_comm]
    unfold StaticTokenSpec.find at ih ⊢
    rw [List.find?_cons, List.find?_cons, htest]
    cases spec.token == key && spec.permits scope with
    | true => exact congrArg some hspec.fields.2.1
    | false => exact ih

/-! ## The authenticator as operations

What a request does depends on whether its key matches an entry, and on whether there is a
validator. Only the last of the three cases performs anything. -/

/-- The authenticator with or without a validator, and with any cap on cache lifetimes. -/
def deployed (a : ApiTokenAuthenticator (MechProg U) U) (validator : Option String)
    (maxCacheTtl : Duration) : ApiTokenAuthenticator (MechProg U) U :=
  match validator with
  | none => a.withMaxCacheTtl maxCacheTtl
  | some name => (a.withFallback (MechProg.validator name)).withMaxCacheTtl maxCacheTtl

variable [Principal U] [AuthScope S]

def answer (a : ApiTokenAuthenticator (MechProg U) U) (blake3 : Blake3) (ctx : AuthContext S) :
    MechProg U (Except AuthError (Verdict U)) :=
  (a.authenticate (MechProg.platform blake3) ctx).run

variable {a : ApiTokenAuthenticator (MechProg U) U}

omit [Principal U] in
/-- The key of a credential that starts with the prefix, whatever was added after `new`. -/
theorem keyOf_deployed {validator : Option String} {maxCacheTtl : Duration} {key : String}
    {credential : Credential} (hcred : credential = .bearer (a.keyPrefix ++ key)) :
    (a.deployed validator maxCacheTtl).keyOf credential = some key := by
  rw [keyOf_eq_some, hcred]
  cases validator <;> rfl

/-- A key with a static token is answered from the list, without any operation. -/
theorem answer_of_matched {validator : Option String} {maxCacheTtl : Duration} {blake3 : Blake3}
    {ctx : AuthContext S} {key : String} {token : StaticToken}
    (hcred : ctx.credential = .bearer (a.keyPrefix ++ key))
    (h : a.matched (AuthScope.cacheDiscriminator ctx.scope) key = some token) :
    (a.deployed validator maxCacheTtl).answer blake3 ctx
      = .ret ((principalFrom "static token principal could not be converted" token.claims).map
          .authenticated) := by
  have hmatched : (a.deployed validator maxCacheTtl).matched
      (AuthScope.cacheDiscriminator ctx.scope) key = some token := by
    rw [← h]
    cases validator <;> rfl
  unfold answer
  rw [authenticate_of_keyOf_eq_some (keyOf_deployed hcred)]
  unfold resolve
  rw [hmatched, map_eq_pure_bind]
  exact Prog.run_mk_pure_bind_pure _ _

/-- Without a validator a key without a static token is refused, without any operation. -/
theorem answer_of_unmatched {maxCacheTtl : Duration} {blake3 : Blake3} {ctx : AuthContext S}
    {key : String} (hfallback : a.fallback = none)
    (hcred : ctx.credential = .bearer (a.keyPrefix ++ key))
    (h : a.matched (AuthScope.cacheDiscriminator ctx.scope) key = none) :
    (a.deployed none maxCacheTtl).answer blake3 ctx
      = .ret (.error (.invalidCredential
          "no static token matches the presented api key for this scope")) := by
  have hmatched : (a.deployed none maxCacheTtl).matched
      (AuthScope.cacheDiscriminator ctx.scope) key = none := h
  have hnone : (a.deployed none maxCacheTtl).fallback = none := hfallback
  unfold answer
  rw [authenticate_of_keyOf_eq_some (keyOf_deployed hcred)]
  unfold resolve
  rw [hmatched, hnone]
  rfl

/-- **With a validator, the cache is asked about it first**, under the digest of the key. -/
theorem answer_of_fallback {name : String} {maxCacheTtl : Duration} {blake3 : Blake3}
    {ctx : AuthContext S} {key : String} (hcache : a.cache = MechProg.cache)
    (hcred : ctx.credential = .bearer (a.keyPrefix ++ key))
    (h : a.matched (AuthScope.cacheDiscriminator ctx.scope) key = none) :
    ∃ k, (a.deployed (some name) maxCacheTtl).answer blake3 ctx
      = .call (.cacheGet
          (CredentialCache.key blake3 (AuthScope.cacheDiscriminator ctx.scope) name "" key)) k := by
  have hmatched : (a.deployed (some name) maxCacheTtl).matched
      (AuthScope.cacheDiscriminator ctx.scope) key = none := h
  have hsome : (a.deployed (some name) maxCacheTtl).fallback = some (MechProg.validator name) := rfl
  have hget : (a.deployed (some name) maxCacheTtl).cache = MechProg.cache := hcache
  unfold answer
  rw [authenticate_of_keyOf_eq_some (keyOf_deployed hcred)]
  unfold resolve
  rw [hmatched, hsome, map_eq_pure_bind]
  unfold validateRemotely
  simp only [hget]
  exact ⟨_, rfl⟩

/-! ## The promise

A configured list is meant to settle what becomes of its keys. It does so for the scopes an entry
permits. -/

/-- An operation that asks the validator about the key, or that touches the cache. -/
def Touches (key : String) : MechOp U → Prop
  | .cacheGet _ | .cacheInsert _ _ _ => True
  | .validate presented _ => presented = key
  | _ => False

/-- What a configured list promises of a key: one on the list is decided by the list alone, by
its first entry that permits the scope; one that is not is refused unless there is a
validator. -/
structure Confined (specs : List StaticTokenSpec) (validator : Option String)
    (scope : Option String) (key : String) (tr : List (Σ op : MechOp U, op.Answer))
    (result : Except AuthError (Verdict U)) : Prop where
  permitted : ∀ spec, StaticTokenSpec.find specs scope key = some spec →
    result = (principalFrom "static token principal could not be converted" spec.identity).map
      .authenticated
  refused : (∃ spec ∈ specs, spec.token = key) → StaticTokenSpec.find specs scope key = none →
    ∃ detail, result = .error (.invalidCredential detail)
  untouched : (∃ spec ∈ specs, spec.token = key) → ∀ x ∈ tr, ¬ Touches key x.1
  unknown : (∀ spec ∈ specs, spec.token ≠ key) → validator = none →
    ∃ detail, result = .error (.invalidCredential detail)

/-- The key is on the list, but for other scopes, and there is a validator. -/
def Exposed (specs : List StaticTokenSpec) (validator : Option String) (scope : Option String)
    (key : String) : Prop :=
  (∃ spec ∈ specs, spec.token = key) ∧ StaticTokenSpec.find specs scope key = none
    ∧ validator ≠ none

omit [Principal U] in
/-- Every operation can be answered, so every request has a behaviour. -/
theorem nonempty_answer (op : MechOp U) : Nonempty op.Answer := by
  cases op with
  | cacheGet k => exact ⟨none⟩
  | cacheInsert k user expiresIn => exact ⟨()⟩
  | systemNow => exact ⟨.epoch⟩
  | validate key scope => exact ⟨.error (.internal "")⟩
  | snapshot =>
    exact ⟨⟨⟨"", none, none, []⟩, ⟨⟨"", none, none, []⟩, "", none, ""⟩, ⟨0, Instant.zero_lt_max⟩⟩⟩
  | requestAsync request => exact ⟨.error (.other "")⟩
  | verifyIdToken token nonce => exact ⟨.error (.internal "")⟩

theorem find_ne_none {specs : List StaticTokenSpec} {scope : Option String} {key : String}
    {spec : StaticTokenSpec} (h : StaticTokenSpec.find specs scope key = some spec) :
    ∃ spec ∈ specs, spec.token = key := by
  have htest := List.find?_some h
  rw [Bool.and_eq_true, beq_iff_eq] at htest
  exact ⟨spec, List.mem_of_find?_eq_some h, htest.1⟩

section Confined

variable {validator scope : Option String} {key : String}

/-- A key with an entry for the scope gets the identity of that entry, and nothing is performed. -/
theorem confined_of_find {spec : StaticTokenSpec}
    (h : StaticTokenSpec.find specs scope key = some spec) :
    Confined (U := U) specs validator scope key []
      ((principalFrom "static token principal could not be converted" spec.identity).map
        .authenticated) where
  permitted := by
    intro spec' hspec'
    rw [Option.some.inj (h.symm.trans hspec')]
  refused _ hnone := absurd (h.symm.trans hnone) (by simp)
  untouched := by simp
  unknown hunknown := by
    obtain ⟨s, hs, hkey⟩ := find_ne_none h
    exact absurd hkey (hunknown s hs)

theorem confined_of_refused (h : StaticTokenSpec.find specs scope key = none) (detail : String) :
    Confined (U := U) specs none scope key [] (.error (.invalidCredential detail)) where
  permitted _ hspec := absurd (h.symm.trans hspec) (by simp)
  refused _ _ := ⟨detail, rfl⟩
  untouched := by simp
  unknown _ _ := ⟨detail, rfl⟩

/-- Of a key on no list nothing is promised where there is one. -/
theorem confined_of_unlisted (h : ¬ ∃ spec ∈ specs, spec.token = key) (hvalidator : validator ≠ none)
    (tr : List (Σ op : MechOp U, op.Answer)) (result : Except AuthError (Verdict U)) :
    Confined specs validator scope key tr result where
  permitted _ hspec := absurd (find_ne_none hspec) h
  refused hknown := absurd hknown h
  untouched hknown := absurd hknown h
  unknown _ hnone := absurd hnone hvalidator

end Confined

/-- **The list keeps its promise, whatever the validator and the cache answer, exactly when the key
is not exposed**: a key known for other scopes only is put to the cache and then to the validator,
like one that is on no list. -/
theorem confined_iff {keyPrefix : String} {specs : List StaticTokenSpec}
    (hnew : new MechProg.cache keyPrefix specs = .ok a) (blake3 : Blake3)
    (validator : Option String) (maxCacheTtl : Duration) {ctx : AuthContext S} {key : String}
    (hcred : ctx.credential = .bearer (keyPrefix ++ key)) :
    (∀ tr result, Prog.Returns ((a.deployed validator maxCacheTtl).answer blake3 ctx) tr result →
        Confined specs validator (AuthScope.cacheDiscriminator ctx.scope) key tr result)
      ↔ ¬ Exposed specs validator (AuthScope.cacheDiscriminator ctx.scope) key := by
  obtain ⟨hpre, hcache, hfallback, htokens⟩ := of_new hnew
  rw [← hpre] at hcred
  have hfind := matched_eq_find htokens (AuthScope.cacheDiscriminator ctx.scope) key
  change (a.matched _ key).map _ = _ at hfind
  cases hspec : StaticTokenSpec.find specs (AuthScope.cacheDiscriminator ctx.scope) key with
  | some spec =>
    have hexposed : ¬ Exposed specs validator (AuthScope.cacheDiscriminator ctx.scope) key := by
      rintro ⟨_, hnone, _⟩
      exact absurd (hspec.symm.trans hnone) (by simp)
    rw [hspec] at hfind
    obtain ⟨token, hmatched, hclaims⟩ := Option.map_eq_some_iff.mp hfind
    refine iff_of_true ?_ hexposed
    -- with or without a validator, the list alone answers
    intro tr result hret
    rw [answer_of_matched hcred hmatched, hclaims] at hret
    obtain ⟨rfl, rfl⟩ := Prog.returns_ret_iff.mp hret
    exact confined_of_find hspec
  | none =>
    rw [hspec] at hfind
    have hmatched := Option.map_eq_none_iff.mp hfind
    cases validator with
    | none =>
      refine iff_of_true ?_ fun h => h.2.2 rfl
      intro tr result hret
      rw [answer_of_unmatched hfallback hcred hmatched] at hret
      obtain ⟨rfl, rfl⟩ := Prog.returns_ret_iff.mp hret
      exact confined_of_refused hspec _
    | some name =>
      have hcall : ∃ k, (a.deployed (some name) maxCacheTtl).answer blake3 ctx
          = .call (.cacheGet (CredentialCache.key blake3
              (AuthScope.cacheDiscriminator ctx.scope) name "" key)) k :=
        answer_of_fallback hcache hcred hmatched
      obtain ⟨k, hanswer⟩ := hcall
      constructor
      · -- the lookup is in every behaviour, and there is at least one
        rintro h ⟨hknown, _, _⟩
        have := nonempty_answer (U := U)
        obtain ⟨tr, result, hret⟩ :=
          Prog.exists_returns ((a.deployed (some name) maxCacheTtl).answer blake3 ctx)
        have huntouched := (h tr result hret).untouched hknown
        rw [hanswer] at hret
        obtain ⟨hit, rest, rfl, _⟩ := Prog.returns_call_iff.mp hret
        exact huntouched _ List.mem_cons_self trivial
      · intro hexposed tr result _
        have hunknown : ¬ ∃ spec ∈ specs, spec.token = key :=
          fun hknown => hexposed ⟨hknown, hspec, by simp⟩
        exact confined_of_unlisted hunknown (by simp) tr result

/-! ## A key presented in another scope

A list with one key, for one scope, and a service that presents it with another. -/

/-- A list of one key, for the scope `acme`. -/
def acmeSpecs : List StaticTokenSpec :=
  [{ token := "acme-secret", principal := "svc-acme", scopes := some ["acme"] }]

def acme : ApiTokenAuthenticator (MechProg User) User where
  keyPrefix := "sptok_"
  tokens := [{
    secret := "acme-secret"
    claims := StaticTokenSpec.identity
      { token := "acme-secret", principal := "svc-acme", scopes := some ["acme"] }
    scopes := some {"acme"}
    secret_ne := by decide }]
  fallback := none
  cache := MechProg.cache
  maxCacheTtl := .fromSecs 300
  keyPrefix_ne := sptok_ne_empty

/-- The key, presented to a service with one global scope. -/
def acmeRequest : AuthContext NoScope := ⟨{}, .bearer ("sptok_" ++ "acme-secret"), .noScope⟩

def zeroHash : Blake3 := fun _ => Vector.replicate 32 0

/-- Without a validator the list keeps its promise: the key is refused. -/
theorem acme_confined :
    new MechProg.cache "sptok_" acmeSpecs = .ok acme
      ∧ ∀ tr result, Prog.Returns ((acme.deployed none (.fromSecs 300)).answer zeroHash acmeRequest)
        tr result → Confined acmeSpecs none none "acme-secret" tr result := by
  have hnew : new MechProg.cache "sptok_" acmeSpecs = .ok acme := rfl
  exact ⟨hnew, (confined_iff hnew zeroHash none (.fromSecs 300) rfl).mpr fun h => h.2.2 rfl⟩

/-- What a validator might answer for that key. -/
def rootClaims : IdentityClaims :=
  IdentityClaims.new .introspection |>.withSubject "root" |>.withEmail "root@example.com"

/-- **With a validator the key leaves the process**, and whoever the validator says presented it is
authenticated, in a scope the list does not name. -/
theorem acme_exposed :
    ∃ tr, ⟨.validate "acme-secret" none, .ok rootClaims⟩ ∈ tr
      ∧ Prog.Returns
          ((acme.deployed (some "introspection") (.fromSecs 300)).answer zeroHash acmeRequest) tr
          (.ok (.authenticated ⟨"root@example.com", "root@example.com"⟩))
      ∧ ¬ Confined acmeSpecs (some "introspection") none "acme-secret" tr
          (.ok (.authenticated (⟨"root@example.com", "root@example.com"⟩ : User))) := by
  refine ⟨[⟨.cacheGet (CredentialCache.key zeroHash none "introspection" "" "acme-secret"), none⟩,
    ⟨.validate "acme-secret" none, .ok rootClaims⟩,
    ⟨.cacheInsert (CredentialCache.key zeroHash none "introspection" "" "acme-secret")
      ⟨"root@example.com", "root@example.com"⟩ none, ()⟩], by simp, ?_, ?_⟩
  · exact .call (.call (.call (.ret _)))
  · intro h
    have hknown : ∃ spec ∈ acmeSpecs, spec.token = "acme-secret" := by
      simp [acmeSpecs]
    obtain ⟨detail, hrefused⟩ := h.refused hknown (by decide)
    exact absurd hrefused (by simp)

end ApiTokenAuthenticator

end AuthnKit
