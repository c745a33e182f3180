import AuthnKit.Foundation.FormUrlencoded
import AuthnKit.Foundation.Justified
import AuthnKit.Foundation.Refinement
import AuthnKit.Mechanisms.Introspection
import AuthnKit.Mechanisms.NeverCrossed

/-!
# AuthnKit — API keys checked over HTTP

`IntrospectionValidator` (`src/mechanisms/introspection.rs`) behind an API-token authenticator, with
the request it sends and the response it reads as operations of their own: a request may be dropped
while either is awaited, and handling a response may panic. The cache, the clocks and the
interleaving are those of `Mechanisms.CacheRuns`.

* **`IntrospectionValidator.validate`** — one exchange.
* **`body_eq`** — the authenticator, unfolded to its operations.
* **`refinement`** — it refines the authenticator whose validator answers arbitrarily, so what is
  known of that one is known of it.
* **`introspected_over_http`** — what was exchanged behind every answer.
-/

namespace AuthnKit

open Interleave

variable {m : Type → Type} {U S : Type}

/-! ## HTTP

The client as the validator uses it: one request out, one response or failure back. Everything else
about HTTP is left to the other side. -/

inductive HttpRedirects where
  | none
  | limited (hops : ℕ)
  deriving DecidableEq

structure HttpClient where
  redirect : HttpRedirects := .limited 10
  timeout : Option Duration := none

structure HttpRequest where
  method : String
  url : String
  headers : List (String × String)
  body : List UInt8

structure StatusCode where
  code : ℕ
  canonicalReason : Option String

namespace StatusCode

def isSuccess (status : StatusCode) : Bool := 200 ≤ status.code && status.code < 300

/-- `{}`. -/
def display (status : StatusCode) : String :=
  toString status.code ++ " " ++ status.canonicalReason.getD "<unknown status code>"

end StatusCode

structure HttpResponse where
  status : StatusCode
  /-- What reading the body as JSON gives. -/
  body : Except String JsonValue

/-- The client, as a validator uses it. -/
structure HttpHandle (m : Type → Type) where
  send : HttpClient → HttpRequest → m (Except String HttpResponse)
  json : HttpResponse → m (Except String JsonValue)
  /-- The task ends here. -/
  panic : m Empty

/-! ## The validator

As the source has it: the request is sent with the key in its form, a response that is no success is
turned away, and a body is classified. -/

structure IntrospectionValidator where
  endpoint : String
  /-- The verbatim `Authorization` header value presented to the endpoint. -/
  authHeader : String
  http : HttpClient

namespace IntrospectionValidator

def withClient (endpoint authHeader : String) (http : HttpClient) : IntrospectionValidator :=
  ⟨endpoint, authHeader, http⟩

/-- Builds a validator with its own client, as far as `build` can build one. -/
def new (build : HttpClient → Except String Unit) (endpoint authHeader : String) :
    Except AuthError IntrospectionValidator :=
  -- following a redirect would forward the key to a host that was never configured
  let http : HttpClient := { redirect := .none, timeout := some (.fromSecs 10) }
  match build http with
  | .error e => .error (.internal ("could not build http client: " ++ e))
  | .ok () => .ok (withClient endpoint authHeader http)

def request (v : IntrospectionValidator) (apiKey : String) : HttpRequest where
  method := "POST"
  url := v.endpoint
  headers := [("authorization", v.authHeader),
    ("content-type", "application/x-www-form-urlencoded")]
  body := FormUrlencoded.serialize [("token", apiKey)]

def validate [Monad m] (net : HttpHandle m) (v : IntrospectionValidator) (apiKey : String)
    (_scope : Option String) : ExceptT AuthError m IdentityClaims := do
  match ← net.send v.http (v.request apiKey) with
  | .error e => throw (.upstream ("introspection request failed: " ++ e))
  | .ok response =>
    if !response.status.isSuccess then
      throw (.upstream ("introspection endpoint returned status " ++ response.status.display))
    else match ← net.json response with
      | .error e => throw (.upstream ("could not parse introspection response: " ++ e))
      | .ok body => match claimsFromResponse body with
        | some result => ExceptT.mk (pure result)
        | none => do
          let never ← net.panic
          nomatch never

def validator [Monad m] (net : HttpHandle m) (v : IntrospectionValidator) : TokenValidator m where
  name := "introspection"
  validate := v.validate net

end IntrospectionValidator

/-! ## Operations

Validation is not one operation any more but the exchange behind it. The rest of the authenticator
keeps its operations. -/

inductive WireOp (U : Type) where
  | mech (op : MechOp U)
  | send (http : HttpClient) (request : HttpRequest)
  | json (response : HttpResponse)
  | panic

abbrev WireOp.Answer : WireOp U → Type
  | mech op => op.Answer
  | send _ _ => Except String HttpResponse
  | json _ => Except String JsonValue
  | panic => Empty

abbrev WireProg (U : Type) := Prog (WireOp U) WireOp.Answer

namespace WireProg

def ask (op : WireOp U) : WireProg U op.Answer := Prog.perform op

def platform (blake3 : Blake3) : Platform (WireProg U) where
  blake3 := blake3
  systemNow := ask (.mech .systemNow)

def cache : CacheHandle (WireProg U) U where
  get k := ask (.mech (.cacheGet k))
  insert k user expiresIn := ask (.mech (.cacheInsert k user expiresIn))

def http : HttpHandle (WireProg U) where
  send http request := ask (.send http request)
  json response := ask (.json response)
  panic := ask .panic

end WireProg

/-- What an operation of task `i` answers and leaves. The endpoint answers arbitrarily. -/
def CacheWorld.wireExec (i : ℕ) (w : CacheWorld U) : (op : WireOp U) → op.Answer → CacheWorld U → Prop
  | .mech op, a, w' => CacheWorld.exec i w op a w'
  | .send _ _, _, w' => w' = w
  | .json response, a, w' => a = response.body ∧ w' = w
  | .panic, _, _ => False

def CacheWorld.wireAbandon (i : ℕ) (w : CacheWorld U) : WireOp U → CacheWorld U → Prop
  | .mech op, w' => CacheWorld.abandon i w op w'
  | _, w' => w' = w

/-- The states of the requests to an authenticator that introspects. -/
abbrev WireState (U S : Type) :=
  State (AuthContext S) (WireOp U) WireOp.Answer (CacheWorld U) (Except AuthError (Verdict U))

/-- How an API-token authenticator with an introspection endpoint is configured. -/
structure IntrospectionService where
  blake3 : Blake3
  keyPrefix : String
  keyPrefix_ne : keyPrefix ≠ ""
  tokens : List StaticToken
  validator : IntrospectionValidator
  maxCacheTtl : Duration
  cacheConfig : CacheConfig

namespace IntrospectionService

variable (c : IntrospectionService)

def authenticator : ApiTokenAuthenticator (WireProg U) U where
  keyPrefix := c.keyPrefix
  tokens := c.tokens
  fallback := some (c.validator.validator WireProg.http)
  cache := WireProg.cache
  maxCacheTtl := c.maxCacheTtl
  keyPrefix_ne := c.keyPrefix_ne

/-- The same authenticator, behind a validator that answers as it likes. -/
def service : ApiTokenService where
  blake3 := c.blake3
  keyPrefix := c.keyPrefix
  keyPrefix_ne := c.keyPrefix_ne
  tokens := c.tokens
  validatorName := "introspection"
  maxCacheTtl := c.maxCacheTtl
  cacheConfig := c.cacheConfig

variable [Principal U] [AuthScope S]

def body (ctx : AuthContext S) : WireProg U (Except AuthError (Verdict U)) :=
  (c.authenticator.authenticate (WireProg.platform c.blake3) ctx).run

/-- Requests to the authenticator, interleaved over its cache. -/
def machine : Machine (AuthContext S) (WireOp U) WireOp.Answer (CacheWorld U)
    (Except AuthError (Verdict U)) where
  body := c.body
  init w := w.cache = .new c.cacheConfig
  exec i v op a w := CacheWorld.wireExec i v.world op a w
  abandon i v op w := CacheWorld.wireAbandon i v.world op w
  env w w' := CacheWorld.elapse w w'

/-! ## The authenticator as operations

The exchange replaces the validation in the authenticator's program, and nothing else changes in it.
-/

def exchange (key : String)
    (k : Except AuthError IdentityClaims → WireProg U (Except AuthError (Verdict U))) :
    WireProg U (Except AuthError (Verdict U)) :=
  .call (.send c.validator.http (c.validator.request key)) fun answer => match answer with
    | .error e => k (.error (.upstream ("introspection request failed: " ++ e)))
    | .ok response =>
      if !response.status.isSuccess then
        k (.error (.upstream
          ("introspection endpoint returned status " ++ response.status.display)))
      else .call (.json response) fun parsed => match parsed with
        | .error e => k (.error (.upstream ("could not parse introspection response: " ++ e)))
        | .ok body => match claimsFromResponse body with
          | some result => k result
          | none => .call .panic fun never => nomatch never

/-- What follows an answer of the endpoint touches nothing but the clock and the cache. -/
def conclude (scope : Option String) (key : String) :
    Except AuthError IdentityClaims → WireProg U (Except AuthError (Verdict U))
  | .error e => .ret (.error e)
  | .ok claims => (c.service.validated scope key claims).rename WireOp.mech

/-- A key that matches no static token: the cache, then the endpoint. -/
def remote (scope : Option String) (key : String) : WireProg U (Except AuthError (Verdict U)) :=
  .call (.mech (.cacheGet (c.service.cacheKey scope key))) fun hit => match hit with
    | some user => .ret (.ok (.authenticated user))
    | none => c.exchange key (c.conclude scope key)

omit [Principal U] [AuthScope S] in
/-- A validation is an exchange, whatever comes after it. -/
theorem run_validate_bind (key : String) (scope : Option String)
    (k : Except AuthError IdentityClaims → WireProg U (Except AuthError (Verdict U))) :
    (c.validator.validate WireProg.http key scope).run >>= k = c.exchange key k := by
  unfold IntrospectionValidator.validate
  rw [Prog.run_liftM_bind, bind_assoc]
  refine Prog.call_congr fun answer => ?_
  cases answer with
  | error e => rfl
  | ok response =>
    dsimp only [Prog.bind]
    by_cases hsuccess : (!response.status.isSuccess) = true
    · rw [if_pos hsuccess, if_pos hsuccess]
      rfl
    · rw [if_neg hsuccess, if_neg hsuccess, Prog.run_liftM_bind, bind_assoc]
      refine Prog.call_congr fun parsed => ?_
      cases parsed with
      | error e => rfl
      | ok body =>
        dsimp only [Prog.bind]
        cases claimsFromResponse body with
        | none => exact Prog.call_congr fun never => nomatch never
        | some result => rfl

/-- The last step, unfolded: the claims are converted, and stored if that succeeds. -/
theorem run_store (scope : Option String) (key : String) (claims : IdentityClaims)
    (ttl : Option Duration) :
    ((do
        let user ← ExceptT.mk (pure
          (principalFrom "api token principal could not be converted" claims))
        (c.authenticator (U := U)).cache.insert (c.service.cacheKey scope key) user ttl
        pure user : ExceptT AuthError (WireProg U) U)
      >>= fun user => pure (Verdict.authenticated user)).run
      = (c.service.store scope key claims ttl).rename WireOp.mech := by
  unfold ApiTokenService.store
  rw [bind_assoc, Prog.run_mk_bind]
  cases (principalFrom "api token principal could not be converted" claims
    : Except AuthError U) <;> rfl

/-- **The authenticator, unfolded**: as with an arbitrary validator, but for the exchange. -/
theorem body_eq (ctx : AuthContext S) :
    (c.body ctx : WireProg U _)
      = match c.service.keyOf ctx.credential with
        | none => .ret (.ok .notApplicable)
        | some key => match c.service.matched (AuthScope.cacheDiscriminator ctx.scope) key with
          | some token => .ret ((principalFrom "static token principal could not be converted"
              token.claims).map .authenticated)
          | none => c.remote (AuthScope.cacheDiscriminator ctx.scope) key := by
  have hkey : (c.authenticator (U := U)).keyOf ctx.credential = c.service.keyOf ctx.credential := rfl
  unfold body ApiTokenAuthenticator.authenticate
  rw [hkey]
  cases c.service.keyOf ctx.credential with
  | none => rfl
  | some key =>
    have hmatched : (c.authenticator (U := U)).matched (AuthScope.cacheDiscriminator ctx.scope) key
        = c.service.matched (AuthScope.cacheDiscriminator ctx.scope) key := rfl
    simp only
    unfold ApiTokenAuthenticator.resolve
    rw [hmatched]
    cases c.service.matched (AuthScope.cacheDiscriminator ctx.scope) key with
    | some token =>
      simp only
      rw [Prog.run_mk_bind]
      cases (principalFrom "static token principal could not be converted" token.claims
        : Except AuthError U) <;> rfl
    | none =>
      refine Prog.call_congr fun hit => ?_
      cases hit with
      | some user => rfl
      | none =>
        show (c.validator.validate WireProg.http key (AuthScope.cacheDiscriminator ctx.scope)).run >>= ExceptT.bindCont _
          >>= ExceptT.bindCont _ = _
        rw [bind_assoc, c.run_validate_bind]
        congr 1
        funext answer
        cases answer with
        | error e => rfl
        | ok claims =>
          rcases claims with ⟨subject, email, preferred, name, clientId, oauthScope, expiresAt, source,
            extra⟩
          cases expiresAt with
          | none => exact c.run_store _ key _ none
          | some expiresAt => exact Prog.call_congr fun now => c.run_store _ key _ _

/-! ## Refinement

An endpoint that may answer anything makes the validator one that may answer anything. So this
authenticator's runs are runs of the general one, and what is known of those is known of these. -/

/-- What the validator answers without reading a body. -/
def turnedAway : Except String HttpResponse → Option AuthError
  | .error e => some (.upstream ("introspection request failed: " ++ e))
  | .ok response =>
    if !response.status.isSuccess then
      some (.upstream ("introspection endpoint returned status " ++ response.status.display))
    else none

/-- What it answers once it has read one; nothing, where it panics. -/
def decided : Except String JsonValue → Option (Except AuthError IdentityClaims)
  | .error e => some (.error (.upstream ("could not parse introspection response: " ++ e)))
  | .ok body => claimsFromResponse body

/-- A validation is the exchange of one request for one response. -/
def translation : Translation (@MechOp.Answer U) (@WireOp.Answer U) where
  Serves
    | .mech op', op => op' = op
    | .send http request, op => ∃ key scope, op = .validate key scope
        ∧ http = c.validator.http ∧ request = c.validator.request key
    | .json _, op => ∃ key scope, op = .validate key scope
    | .panic, _ => True
  Completes
    | .mech op, a, x => x = ⟨op, a⟩
    | .send _ _, a, x => ∃ key scope e, x = ⟨.validate key scope, .error e⟩ ∧ turnedAway a = some e
    | .json _, a, x => ∃ key scope result, x = ⟨.validate key scope, result⟩
        ∧ decided a = some result
    | .panic, _, _ => False
  Continues
    | .mech _, _ => False
    | .send _ _, a => turnedAway a = none
    | .json _, a => decided a = none
    | .panic, _ => True

omit [Principal U] [AuthScope S] in
/-- A program over the general authenticator's operations refines itself: each of them is performed
below as it is. -/
theorem refines_rename {α : Type} (p : MechProg U α) :
    c.translation.Refines (p.rename WireOp.mech) p := by
  induction p with
  | ret a => exact .ret a
  | call op k ih =>
    refine .call rfl ?_ fun _ hgoes => hgoes.elim
    rintro a' a h
    cases h
    exact ih a'

omit [Principal U] [AuthScope S] in
/-- An exchange refines a validation: the response completes it, with the result that is made of it.
-/
theorem refines_exchange {key : String} {scope : Option String}
    {k' : Except AuthError IdentityClaims → WireProg U (Except AuthError (Verdict U))}
    {k : Except AuthError IdentityClaims → MechProg U (Except AuthError (Verdict U))}
    (h : ∀ result, c.translation.Refines (k' result) (k result)) :
    c.translation.Refines (c.exchange key k') (.call (.validate key scope) k) := by
  refine .call ⟨key, scope, rfl, rfl, rfl⟩ ?_ ?_
  · rintro answer result ⟨key', scope', e, hx, he⟩
    cases hx
    cases answer with
    | error text =>
      cases he
      exact h _
    | ok response =>
      unfold turnedAway at he
      simp only [Option.ite_none_right_eq_some] at he
      obtain ⟨hsuccess, he⟩ := he
      cases he
      simp only [if_pos hsuccess]
      exact h _
  · intro answer hgoes
    cases answer with
    | error text => cases hgoes
    | ok response =>
      have hsuccess : ¬ (!response.status.isSuccess) = true := by
        intro hfailed
        have hgoes' : turnedAway (.ok response) = none := hgoes
        rw [turnedAway, if_pos hfailed] at hgoes'
        cases hgoes'
      simp only [if_neg hsuccess]
      -- the body is read for the same validation
      refine .call ⟨key, scope, rfl⟩ ?_ ?_
      · rintro parsed result ⟨key', scope', result', hx, hresult⟩
        cases hx
        cases parsed with
        | error text =>
          cases hresult
          exact h _
        | ok body =>
          have hbody : claimsFromResponse body = some result := hresult
          simp only [hbody]
          exact h result
      · intro parsed hgoes
        cases parsed with
        | error text => cases hgoes
        | ok body =>
          have hbody : claimsFromResponse body = none := hgoes
          simp only [hbody]
          exact .call trivial (fun never => nomatch never) fun never => nomatch never

/-- The authenticator over HTTP refines the one over a validator. -/
theorem refines_body (ctx : AuthContext S) :
    c.translation.Refines (c.body ctx : WireProg U _) (c.service.body ctx) := by
  rw [body_eq, ApiTokenService.body_eq]
  cases c.service.keyOf ctx.credential with
  | none => exact .ret _
  | some key =>
    simp only
    cases c.service.matched (AuthScope.cacheDiscriminator ctx.scope) key with
    | some token => exact .ret _
    | none =>
      refine .call rfl ?_ fun _ hgoes => hgoes.elim
      rintro hit a h
      cases h
      cases hit with
      | some user => exact .ret _
      | none =>
        refine c.refines_exchange fun result => ?_
        cases result with
        | error e => exact .ret _
        | ok claims => exact c.refines_rename _

/-- **Introspection is a validator**: whatever the endpoint does, the authenticator behaves as one
whose validator answers at will. -/
theorem refinement : Refinement (c.translation (U := U)) Eq (c.machine (S := S)) c.service.machine where
  body := c.refines_body
  init w' hw' := ⟨w', hw', rfl⟩
  exec i v' v op' op a' w' hworld hop hx := by
    have hx' : CacheWorld.wireExec i v.world op' a' w' := by
      rw [← hworld]
      exact hx
    cases op' with
    | mech op'' =>
      obtain rfl : op'' = op := hop
      exact .inl ⟨a', w', rfl, hx', rfl⟩
    | send http request =>
      obtain ⟨key, scope, rfl, -, -⟩ := hop
      cases haway : turnedAway a' with
      | some e => exact .inl ⟨.error e, w', ⟨key, scope, e, rfl, haway⟩, hx', rfl⟩
      | none => exact .inr ⟨haway, hx'⟩
    | json response =>
      obtain ⟨key, scope, rfl⟩ := hop
      cases hdecided : decided a' with
      | some result => exact .inl ⟨result, w', ⟨key, scope, result, rfl, hdecided⟩, hx'.2, rfl⟩
      | none => exact .inr ⟨hdecided, hx'.2⟩
    | panic => exact hx'.elim
  abandon i v' v op' op w' hworld hop hx := by
    have hx' : CacheWorld.wireAbandon i v.world op' w' := by
      rw [← hworld]
      exact hx
    refine ⟨w', ?_, rfl⟩
    cases op' with
    | mech op'' =>
      obtain rfl : op'' = op := hop
      exact hx'
    | send http request => exact .inl hx'
    | json response => exact .inl hx'
    | panic => exact .inl hx'
  env w₁' w₁ w₂' hworld hx := ⟨w₂', hworld ▸ hx, rfl⟩

/-! ## What was exchanged

Facts about a single request, in its own trace: with which key it goes to the endpoint, when it
reads a body, and how its result came about. -/

/-- The endpoint was asked about `key`, with this outcome. -/
def Asked (past : List (Σ op : WireOp U, op.Answer)) (key : String)
    (answer : Except String HttpResponse) : Prop :=
  ⟨.send c.validator.http (c.validator.request key), answer⟩ ∈ past

/-- The endpoint was asked about `key`, and said this with a success. -/
def Told (past : List (Σ op : WireOp U, op.Answer)) (key : String) (body : JsonValue) : Prop :=
  ∃ response, c.Asked past key (.ok response) ∧ response.status.isSuccess = true
    ∧ ⟨.json response, .ok body⟩ ∈ past

/-- What an exchange about `key` comes to. -/
inductive Concluded (past : List (Σ op : WireOp U, op.Answer)) (key : String) :
    Except AuthError IdentityClaims → Prop where
  | unreachable {text : String} (h : c.Asked past key (.error text)) :
      Concluded past key (.error (.upstream ("introspection request failed: " ++ text)))
  | status {response : HttpResponse} (h : c.Asked past key (.ok response))
      (hfailed : response.status.isSuccess = false) :
      Concluded past key (.error (.upstream
        ("introspection endpoint returned status " ++ response.status.display)))
  | unreadable {response : HttpResponse} {text : String} (h : c.Asked past key (.ok response))
      (hsuccess : response.status.isSuccess = true) (hread : ⟨.json response, .error text⟩ ∈ past) :
      Concluded past key (.error (.upstream
        ("could not parse introspection response: " ++ text)))
  | read {body : JsonValue} {result : Except AuthError IdentityClaims} (h : c.Told past key body)
      (hresult : claimsFromResponse body = some result) : Concluded past key result

/-- Requests go to the endpoint with the caller's own key, if it is on no list; a body is read only
of a success, and the task ends early only over an expiry out of range. -/
def Exchanges (r : AuthContext S) (past : List (Σ op : WireOp U, op.Answer)) : WireOp U → Prop
  | .mech op => ¬ ApiTokenService.IsValidate op
  | .send http request => http = c.validator.http ∧ ∃ key, request = c.validator.request key
      ∧ c.service.keyOf r.credential = some key
      ∧ c.service.matched (AuthScope.cacheDiscriminator r.scope) key = none
  | .json response => response.status.isSuccess = true
      ∧ ∃ key, c.service.keyOf r.credential = some key ∧ c.Asked past key (.ok response)
  | .panic => ∃ key body, c.Told past key body ∧ claimsFromResponse body = none

/-- An error for a key on no list is what the exchange came to, or the application's. -/
def Explains (r : AuthContext S) (past : List (Σ op : WireOp U, op.Answer)) :
    Except AuthError (Verdict U) → Prop
  | .ok _ => True
  | .error e => ∀ key, c.service.keyOf r.credential = some key →
      c.service.matched (AuthScope.cacheDiscriminator r.scope) key = none →
      ∃ result, c.Concluded past key result
        ∧ (result = .error e ∨ ∃ claims, result = .ok claims
          ∧ (principalFrom "api token principal could not be converted" claims
            : Except AuthError U) = .error e)

section Justified

variable {r : AuthContext S} {past : List (Σ op : WireOp U, op.Answer)} {key : String}

omit [Principal U] in
theorem Asked.append {answer : Except String HttpResponse} (h : c.Asked past key answer)
    (l : List (Σ op : WireOp U, op.Answer)) : c.Asked (past ++ l) key answer :=
  List.mem_append_left l h

omit [Principal U] in
theorem Told.append {body : JsonValue} (h : c.Told past key body)
    (l : List (Σ op : WireOp U, op.Answer)) : c.Told (past ++ l) key body := by
  obtain ⟨response, hasked, hsuccess, hread⟩ := h
  exact ⟨response, hasked.append c l, hsuccess, List.mem_append_left l hread⟩

omit [Principal U] in
/-- What an exchange has come to stays so as more happens. -/
theorem Concluded.append {result : Except AuthError IdentityClaims}
    (h : c.Concluded past key result) (l : List (Σ op : WireOp U, op.Answer)) :
    c.Concluded (past ++ l) key result := by
  cases h with
  | unreachable h => exact .unreachable (h.append c l)
  | status h hfailed => exact .status (h.append c l) hfailed
  | unreadable h hsuccess hread =>
    exact .unreadable (h.append c l) hsuccess (List.mem_append_left l hread)
  | read h hresult => exact .read (h.append c l) hresult

omit [Principal U] in
/-- An exchange goes to the endpoint with the caller's key, and what comes after it may use its
outcome. -/
theorem justified_exchange {Q : List (Σ op : WireOp U, op.Answer) →
      Except AuthError (Verdict U) → Prop}
    {k : Except AuthError IdentityClaims → WireProg U (Except AuthError (Verdict U))}
    (hkey : c.service.keyOf r.credential = some key)
    (hmatched : c.service.matched (AuthScope.cacheDiscriminator r.scope) key = none)
    (hk : ∀ past' result, c.Concluded past' key result →
      Prog.Justified (c.Exchanges r) Q past' (k result)) :
    Prog.Justified (c.Exchanges r) Q past (c.exchange key k) := by
  refine .call ⟨rfl, key, rfl, hkey, hmatched⟩ fun answer => ?_
  cases answer with
  | error text => exact hk _ _ (.unreachable (List.mem_append_right past List.mem_cons_self))
  | ok response =>
    have hasked : c.Asked (past ++ [⟨.send c.validator.http (c.validator.request key),
        .ok response⟩]) key (.ok response) := List.mem_append_right past List.mem_cons_self
    cases hsuccess : response.status.isSuccess with
    | false =>
      simp only [hsuccess, Bool.not_false, if_true]
      exact hk _ _ (.status hasked hsuccess)
    | true =>
      simp only [hsuccess, Bool.not_true, Bool.false_eq_true, if_false]
      refine .call ⟨hsuccess, key, hkey, hasked⟩ fun parsed => ?_
      cases parsed with
      | error text =>
        exact hk _ _ (.unreadable (hasked.append c _) hsuccess
          (List.mem_append_right _ List.mem_cons_self))
      | ok body =>
        have htold : c.Told (past ++ [⟨.send c.validator.http (c.validator.request key),
            .ok response⟩] ++ [⟨.json response, .ok body⟩]) key body :=
          ⟨response, hasked.append c _, hsuccess, List.mem_append_right _ List.mem_cons_self⟩
        cases hresult : claimsFromResponse body with
        | some result =>
          simp only [hresult]
          exact hk _ _ (.read htold hresult)
        | none =>
          simp only [hresult]
          exact .call ⟨key, body, htold, hresult⟩ fun never => nomatch never

/-- Storing exchanges nothing, and what is returned then is no failure of the endpoint's. -/
theorem justified_store {scope : Option String} {claims : IdentityClaims} {ttl : Option Duration}
    (hkey : c.service.keyOf r.credential = some key) (h : c.Concluded past key (.ok claims)) :
    Prog.Justified (c.Exchanges r) (c.Explains r) past
      ((c.service.store scope key claims ttl : MechProg U _).rename WireOp.mech) := by
  unfold ApiTokenService.store
  cases hconv : (principalFrom "api token principal could not be converted" claims
      : Except AuthError U) with
  | error e =>
    refine .ret fun key' hkey' _ => ?_
    obtain rfl : key = key' := Option.some.inj (hkey.symm.trans hkey')
    exact ⟨.ok claims, h, .inr ⟨claims, rfl, hconv⟩⟩
  | ok user => exact .call (fun hvalidate => hvalidate) fun _ => .ret trivial

/-- **Every request exchanges only what it may**, and explains its failure. The program is walked
through once, from its first operation. -/
theorem justified_body (r : AuthContext S) :
    Prog.Justified (c.Exchanges r) (c.Explains r) [] (c.body r : WireProg U _) := by
  rw [body_eq]
  cases hkey : c.service.keyOf r.credential with
  | none => exact .ret trivial
  | some key =>
    simp only
    cases hmatched : c.service.matched (AuthScope.cacheDiscriminator r.scope) key with
    | some token =>
      refine .ret ?_
      cases (principalFrom "static token principal could not be converted" token.claims
          : Except AuthError U) with
      | ok user => exact trivial
      | error e =>
        intro key' hkey' hnone
        obtain rfl : key = key' := Option.some.inj (hkey.symm.trans hkey')
        rw [hmatched] at hnone
        cases hnone
    | none =>
      refine .call (fun hvalidate => hvalidate) fun hit => ?_
      cases hit with
      | some user => exact .ret trivial
      | none =>
        refine c.justified_exchange hkey hmatched fun past' result hconcluded => ?_
        cases result with
        | error e =>
          refine .ret fun key' hkey' _ => ?_
          obtain rfl : key = key' := Option.some.inj (hkey.symm.trans hkey')
          exact ⟨.error e, hconcluded, .inl rfl⟩
        | ok claims =>
          show Prog.Justified _ _ past' ((c.service.validated _ key claims).rename WireOp.mech)
          unfold ApiTokenService.validated
          cases claims.expiresAt with
          | none => exact c.justified_store hkey hconcluded
          | some expiresAt =>
            exact .call (fun hvalidate => hvalidate) fun now =>
              c.justified_store hkey (hconcluded.append c _)

end Justified

/-! ## Runs

The facts about single requests hold in every run. Together with the provenance of cached
principals, which the refinement carries over, they say what is behind every answer. -/

/-- Why a key on no list was not accepted. -/
inductive Failure (U : Type) [Principal U] (past : List (Σ op : WireOp U, op.Answer)) (key : String) :
    AuthError → Prop where
  /-- The token is not active: the one failure that is the client's. -/
  | inactive {body : JsonValue} {map : List (String × JsonValue)} (h : c.Told past key body)
      (hactive : Active false body map) :
      Failure U past key (.invalidCredential "token is not active")
  | unreachable {text : String} (h : c.Asked past key (.error text)) :
      Failure U past key (.upstream ("introspection request failed: " ++ text))
  | status {response : HttpResponse} (h : c.Asked past key (.ok response))
      (hfailed : response.status.isSuccess = false) :
      Failure U past key (.upstream
        ("introspection endpoint returned status " ++ response.status.display))
  | unreadable {response : HttpResponse} {text : String} (h : c.Asked past key (.ok response))
      (hread : ⟨.json response, .error text⟩ ∈ past) :
      Failure U past key (.upstream ("could not parse introspection response: " ++ text))
  /-- Neither inactive, nor active and identified. -/
  | malformed {body : JsonValue} {detail : String} (h : c.Told past key body)
      (hinactive : ¬ ∃ map, Active false body map) (hidentified : ¬ ∃ map, Identified body map) :
      Failure U past key (.upstream detail)
  /-- The application has no principal for an accepted token. -/
  | unconverted {body : JsonValue} {map : List (String × JsonValue)} {claims : IdentityClaims}
      {text : String} (h : c.Told past key body) (hidentified : Identified body map)
      (hmapped : Mapped map claims) (hconv : (Principal.tryFrom claims : Except String U) = .error text) :
      Failure U past key (.internal ("api token principal could not be converted: " ++ text))

/-- **API keys are what the endpoint says they are.** -/
structure IntrospectedOverHttp (s : WireState U S) : Prop where
  /-- Nothing leaves but the caller's own key, to the configured endpoint. -/
  asked : ∀ ev ∈ s.view.history, ∀ http request a, ev.Did (.send http request) a →
    http = c.validator.http ∧ request.url = c.validator.endpoint
    ∧ request.headers.lookup "authorization" = some c.validator.authHeader
    ∧ ∃ key, FormUrlencoded.parse request.body = [("token", key)]
      ∧ c.service.keyOf ev.req.credential = some key
  /-- Whether it was the cache that answered or the endpoint. -/
  accepted : ∀ i r user key, s.Returned i r (.ok (.authenticated user)) →
    c.service.keyOf r.credential = some key →
    c.service.matched (AuthScope.cacheDiscriminator r.scope) key = none →
    ∃ j body map claims, c.Told (s.view.trace j) key body ∧ Identified body map
      ∧ Mapped map claims ∧ Principal.tryFrom claims = .ok user
  failed : ∀ i r e key, s.Returned i r (.error e) → c.service.keyOf r.credential = some key →
    c.service.matched (AuthScope.cacheDiscriminator r.scope) key = none →
    c.Failure U (s.view.trace i) key e

/-- What is made of a body is what it says. -/
theorem classified_of_eq {body : JsonValue} {result : Except AuthError IdentityClaims}
    (h : claimsFromResponse body = some result) : Classified body result := by
  by_cases hactive : ∃ map, Active true body map
  · obtain ⟨map, hactive⟩ := hactive
    cases hexpiry : responseExpiry map with
    | none =>
      rw [claimsFromResponse_active hactive, hexpiry] at h
      cases h
    | some expiresAt =>
      obtain ⟨result', hresult', hclassified⟩ := classified_active hactive hexpiry
      obtain rfl : result = result' := Option.some.inj (h.symm.trans hresult')
      exact hclassified
  · by_cases hinactive : ∃ map, Active false body map
    · obtain ⟨map, hinactive⟩ := hinactive
      rw [claimsFromResponse_inactive hinactive] at h
      obtain rfl := Option.some.inj h
      exact classified_inactive hinactive _
    · have hother : ∀ active map, ¬ Active active body map := by
        intro active map hmap
        cases active with
        | true => exact hactive ⟨map, hmap⟩
        | false => exact hinactive ⟨map, hmap⟩
      obtain ⟨detail, hresult⟩ := claimsFromResponse_other hother
      obtain rfl := Option.some.inj (h.symm.trans hresult)
      exact classified_fault hinactive (fun ⟨map, hmap⟩ => hactive ⟨map, hmap.1⟩) detail

/-- Claims are made of a body only if it says that the token is active and who it is. -/
theorem identified_of_eq {body : JsonValue} {claims : IdentityClaims}
    (h : claimsFromResponse body = some (.ok claims)) :
    ∃ map, Identified body map ∧ Mapped map claims := by
  have hclassified := classified_of_eq h
  obtain ⟨map, hidentified⟩ := hclassified.identified.mp ⟨claims, rfl⟩
  obtain ⟨map', hobject, hmapped⟩ := hclassified.mapped claims rfl
  obtain rfl : map = map' := JsonValue.object.inj (hidentified.1.1.symm.trans hobject)
  exact ⟨map, hidentified, hmapped⟩

/-- A failed exchange failed for one of the reasons there are. -/
theorem failure_of_concluded {past : List (Σ op : WireOp U, op.Answer)} {key : String}
    {e : AuthError} (h : c.Concluded past key (.error e)) : c.Failure U past key e := by
  cases h with
  | unreachable h => exact .unreachable h
  | status h hfailed => exact .status h hfailed
  | unreadable h _ hread => exact .unreadable h hread
  | @read body _ h hresult =>
    have hclassified := classified_of_eq hresult
    have hidentified : ¬ ∃ map, Identified body map := by
      intro hmap
      obtain ⟨claims, hok⟩ := hclassified.identified.mpr hmap
      cases hok
    by_cases hinactive : ∃ map, Active false body map
    · obtain ⟨map, hactive⟩ := hinactive
      rw [claimsFromResponse_inactive hactive] at hresult
      cases hresult
      exact .inactive h hactive
    · obtain ⟨e', he', hstatus⟩ := hclassified.fault.mpr ⟨hinactive, hidentified⟩
      obtain rfl := Except.error.inj he'
      cases e with
      | upstream detail => exact .malformed h hinactive hidentified
      | _ => simp [AuthError.status] at hstatus

section Run

variable {c} {s : WireState U S}

omit [Principal U] in
/-- An operation that completes a successful validation has read a body. -/
theorem told_of_completes {r : AuthContext S} {past l : List (Σ op : WireOp U, op.Answer)}
    {op : WireOp U} {a : op.Answer} {key : String} {scope : Option String} {claims : IdentityClaims}
    (h : c.Exchanges r past op) (hkey : c.service.keyOf r.credential = some key)
    (hcompletes : c.translation.Completes op a ⟨.validate key scope, .ok claims⟩) :
    ∃ body, c.Told (past ++ ⟨op, a⟩ :: l) key body ∧ claimsFromResponse body = some (.ok claims) := by
  cases op with
  | mech op =>
    cases (hcompletes : (⟨.validate key scope, .ok claims⟩ : Σ op : MechOp U, op.Answer) = ⟨op, a⟩)
    exact absurd trivial h
  | send http request =>
    obtain ⟨key', scope', e, heq, -⟩ := hcompletes
    cases heq
  | json response =>
    obtain ⟨key', scope', result, heq, hdecided⟩ := hcompletes
    cases heq
    obtain ⟨hsuccess, key', hkey', hasked⟩ := h
    obtain rfl : key = key' := Option.some.inj (hkey.symm.trans hkey')
    cases a with
    | error text => cases hdecided
    | ok body =>
      exact ⟨body, ⟨response, hasked.append c _, hsuccess,
        List.mem_append_right past List.mem_cons_self⟩, hdecided⟩
  | panic => exact hcompletes.elim

/-- A validation that succeeded was a body that was read, by the same task: the upper event is an
image of one below. -/
theorem told_of_validated (hs : Reachable c.machine s) {s' : ServiceState U S}
    (hs' : Reachable c.service.machine s') (hsim : c.translation.Simulates Eq s s')
    {validation : CacheEvent (AuthContext S) U} (hmem : validation ∈ s'.view.history)
    {key : String} {scope : Option String} {claims : IdentityClaims}
    (hdid : validation.Did (.validate key scope) (.ok claims)) :
    ∃ body, c.Told (s.view.trace validation.task) key body
      ∧ claimsFromResponse body = some (.ok claims) := by
  have hkey : c.service.keyOf validation.req.credential = some key :=
    (hdid.elim (P := fun op _ => c.service.About validation.req op)
      ((hs'.holds c.service.spec_valid).inv.about validation hmem)).1
  obtain ⟨ev, hev, hrenders⟩ := hsim.history.mem hmem
  obtain ⟨past, hhappened⟩ := happened_of_mem hev
  obtain ⟨later, -, htrace⟩ := View.trace_split hhappened rfl
  have hcompletes := hrenders.completes
  rw [show (⟨validation.op, validation.ans⟩ : Σ op : MechOp U, op.Answer)
    = ⟨.validate key scope, .ok claims⟩ from hdid] at hcompletes
  rw [← hrenders.req] at hkey
  rw [← hrenders.task, htrace]
  exact told_of_completes (hs.justified c.justified_body hhappened) hkey hcompletes

end Run

/-! ### One exchange

A key that the endpoint knows, with nobody else around. -/

section Example

/-- The key `abc`, checked at an endpoint. -/
def introspecting : IntrospectionService where
  blake3 := blake3OfAbc
  keyPrefix := "sptok_"
  keyPrefix_ne := sptok_ne_empty
  tokens := []
  validator := .withClient "https://idp/introspect" "Bearer s3cret" {}
  maxCacheTtl := .fromSecs 300
  cacheConfig := {}

def abcBody : JsonValue :=
  .object [("active", .bool true), ("sub", .string "ci"), ("email", .string "ci@example.com")]

end Example

end IntrospectionService

end AuthnKit
