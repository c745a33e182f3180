import AuthnKit.Core.Identity

/-!
# AuthnKit — introspection responses

`claims_from_response` of `src/mechanisms/introspection.rs`: what the body of an introspection
response says about a token. The result is `none` where the source panics.

* **`claimsFromResponse_cases`** — the ways it ends.
* **`Classified`** — what a caller relies on, for a body.
* **`classified_iff`** — it can, unless the token is active and its expiry out of range.
-/

namespace AuthnKit

/-! ## JSON values

The accessors of `serde_json` that the response is read with: each of them answers for one kind of
value, and nothing for the others. -/

namespace JsonValue

def asBool : JsonValue → Option Bool
  | bool b => some b
  | _ => none

def asStr : JsonValue → Option String
  | string s => some s
  | _ => none

/-- An unsigned 64-bit integer. -/
def asU64 : JsonValue → Option UInt64
  | int n => if 0 ≤ n ∧ n < 2 ^ 64 then some (UInt64.ofNat n.toNat) else none
  | _ => none

/-- A value is read as a boolean exactly when it is one. -/
@[simp] theorem asBool_eq_some {j : JsonValue} {b : Bool} : j.asBool = some b ↔ j = .bool b := by
  cases j <;> simp [asBool]

/-- A value is read as a string exactly when it is one. -/
@[simp] theorem asStr_eq_some {j : JsonValue} {s : String} : j.asStr = some s ↔ j = .string s := by
  cases j <;> simp [asStr]

/-- A value is read as an unsigned integer exactly when it is an integer of 64 bits that is not
negative. -/
theorem asU64_eq_some {j : JsonValue} {secs : UInt64} :
    j.asU64 = some secs ↔ j = .int secs.toNat := by
  have hsecs := secs.toNat_lt
  cases j with
  | int n =>
    simp only [asU64, Option.ite_none_right_eq_some, Option.some.injEq, int.injEq]
    constructor
    · rintro ⟨⟨hle, hlt⟩, rfl⟩
      rw [UInt64.toNat_ofNat']
      omega
    · rintro rfl
      exact ⟨⟨by omega, by omega⟩, by simp⟩
  | null => simp [asU64]
  | bool b => simp [asU64]
  | float bits => simp [asU64]
  | string s => simp [asU64]
  | array items => simp [asU64]
  | object members => simp [asU64]

end JsonValue

/-! ## The response -/

/-- The expiry of a response, if it has one. -/
def responseExpiry (map : List (String × JsonValue)) : Option (Option SystemTime) :=
  match (map.lookup "exp").bind JsonValue.asU64 with
  -- the addition panics when it overflows
  | some exp => (SystemTime.epoch.checkedAdd (.fromSecs exp)).map some
  | none => some none

def responseClaims (map : List (String × JsonValue)) (expiresAt : Option SystemTime) :
    IdentityClaims :=
  let string key := (map.lookup key).bind JsonValue.asStr
  { IdentityClaims.new .introspection with
    subject := string "sub"
    preferredUsername := string "username"
    email := string "email"
    clientId := string "client_id"
    scope := string "scope"
    expiresAt := expiresAt
    extra := map }

/-- Maps a response onto `IdentityClaims`. -/
def claimsFromResponse : JsonValue → Option (Except AuthError IdentityClaims)
  | .object map =>
    match (map.lookup "active").bind JsonValue.asBool with
    | some true => do
      let claims := responseClaims map (← responseExpiry map)
      -- an active token with nothing identifying it cannot produce a principal
      if claims.bestEffortUsername = none then
        return .error (.upstream
          "introspection reported an active token carrying no identity claim")
      return .ok claims
    | some false => some (.error (.invalidCredential "token is not active"))
    | none =>
      some (.error (.upstream
        "introspection response omitted the required \u0060active\u0060 member"))
  | _ => some (.error (.upstream "introspection response was not a JSON object"))

/-! ## What a body says

The specification, over the members of the object and without the order in which they are looked at:
what makes a token inactive, what identifies it, and what its claims have to say. -/

/-- The member is a boolean with this value. -/
def Active (active : Bool) (body : JsonValue) (map : List (String × JsonValue)) : Prop :=
  body = .object map ∧ map.lookup "active" = some (.bool active)

/-- An active token with something that identifies it. -/
def Identified (body : JsonValue) (map : List (String × JsonValue)) : Prop :=
  Active true body map
    ∧ ∃ key ∈ ["username", "email", "sub", "client_id"], ∃ s, map.lookup key = some (.string s)

/-- An active token that expires after the last instant there is. -/
def Overflows (body : JsonValue) : Prop :=
  ∃ map n, Active true body map ∧ map.lookup "exp" = some (.int n) ∧ 2 ^ 63 ≤ n ∧ n < 2 ^ 64

/-- The field is the member if that is a string, and absent otherwise. -/
def IsMember (map : List (String × JsonValue)) (key : String) (field : Option String) : Prop :=
  ∀ s, field = some s ↔ map.lookup key = some (.string s)

/-- What claims say of the body they were made of. -/
structure Mapped (map : List (String × JsonValue)) (claims : IdentityClaims) : Prop where
  extra : claims.extra = map
  subject : IsMember map "sub" claims.subject
  preferredUsername : IsMember map "username" claims.preferredUsername
  email : IsMember map "email" claims.email
  clientId : IsMember map "client_id" claims.clientId
  scope : IsMember map "scope" claims.scope
  /-- No member is mapped onto the display name. -/
  name : claims.name = none
  expiresAt : ∀ n (t : SystemTime), map.lookup "exp" = some (.int n) → 0 ≤ n →
    t.nanos = n * 1000000000 → claims.expiresAt = some t

/-- A body is classified: as an inactive token, as claims, or as a fault of the endpoint. -/
structure Classified (body : JsonValue) (result : Except AuthError IdentityClaims) : Prop where
  inactive : (∃ e, result = .error e ∧ e.status = 401) ↔ ∃ map, Active false body map
  identified : (∃ claims, result = .ok claims) ↔ ∃ map, Identified body map
  fault : (∃ e, result = .error e ∧ e.status = 503)
    ↔ ¬ (∃ map, Active false body map) ∧ ¬ ∃ map, Identified body map
  mapped : ∀ claims, result = .ok claims → ∃ map, body = .object map ∧ Mapped map claims

/-! ## The expiry

Seconds since the epoch become a system time. The addition can leave the range of the clock, which
is the one thing that keeps a body from being classified. -/

/-- There is no expiry to be had exactly when the member is an unsigned integer from `2 ^ 63` on:
adding it to the epoch overflows. -/
theorem responseExpiry_eq_none_iff {map : List (String × JsonValue)} :
    responseExpiry map = none
      ↔ ∃ n, map.lookup "exp" = some (.int n) ∧ 2 ^ 63 ≤ n ∧ n < 2 ^ 64 := by
  unfold responseExpiry
  cases hexp : (map.lookup "exp").bind JsonValue.asU64 with
  | none =>
    simp only [reduceCtorEq, false_iff]
    rintro ⟨n, hn, hle, hlt⟩
    rw [hn, Option.bind_some, JsonValue.asU64, if_pos ⟨by omega, hlt⟩] at hexp
    cases hexp
  | some exp =>
    obtain ⟨j, hj, hjexp⟩ := Option.bind_eq_some_iff.mp hexp
    obtain rfl := JsonValue.asU64_eq_some.mp hjexp
    have hlt := exp.toNat_lt
    simp only [Option.map_eq_none_iff, SystemTime.checkedAdd_eq_none, hj]
    have hnanos : (SystemTime.epoch.nanos + (Duration.fromSecs exp).nanos : ℤ)
        = exp.toNat * 1000000000 := by
      show (0 + (exp.toNat * 1000000000 : ℕ) : ℤ) = _
      omega
    rw [hnanos]
    constructor
    · intro h
      exact ⟨exp.toNat, rfl, by omega, by omega⟩
    · rintro ⟨n, hn, hle, -⟩
      obtain rfl := JsonValue.int.inj (Option.some.inj hn)
      omega

/-- A representable expiry is the one that is kept, in seconds. -/
theorem responseExpiry_of_int {map : List (String × JsonValue)} {n : ℤ} {t : SystemTime}
    (hexp : map.lookup "exp" = some (.int n)) (hn : 0 ≤ n) (ht : t.nanos = n * 1000000000) :
    responseExpiry map = some (some t) := by
  have hlt := t.nanos_lt
  have hu64 : JsonValue.asU64 (.int n) = some (UInt64.ofNat n.toNat) := by
    rw [JsonValue.asU64, if_pos ⟨hn, by omega⟩]
  have hadd : SystemTime.epoch.checkedAdd (.fromSecs (UInt64.ofNat n.toNat)) = some t := by
    rw [SystemTime.checkedAdd_eq_some]
    show t.nanos = 0 + (((UInt64.ofNat n.toNat).toNat * 1000000000 : ℕ) : ℤ)
    rw [UInt64.toNat_ofNat']
    omega
  unfold responseExpiry
  simp only [hexp, Option.bind_some, hu64, hadd, Option.map_some]

/-! ## The claims

Members that are strings become fields, one by one; a token is identified by any of four of them. -/

/-- Reading a member as a string gives the field the specification asks for. -/
theorem isMember_bind (map : List (String × JsonValue)) (key : String) :
    IsMember map key ((map.lookup key).bind JsonValue.asStr) := by
  intro s
  rw [Option.bind_eq_some_iff]
  simp

/-- Nothing identifies a token none of whose identifying members is a string, and everything else
does. -/
theorem bestEffortUsername_responseClaims {map : List (String × JsonValue)}
    {expiresAt : Option SystemTime} :
    (responseClaims map expiresAt).bestEffortUsername = none
      ↔ ¬ ∃ key ∈ ["username", "email", "sub", "client_id"],
        ∃ s, map.lookup key = some (.string s) := by
  have hnone : ∀ key, (map.lookup key).bind JsonValue.asStr = none
      ↔ ∀ s, map.lookup key ≠ some (.string s) := by
    intro key
    rw [Option.eq_none_iff_forall_ne_some]
    exact forall_congr' fun s => not_congr (isMember_bind map key s)
  unfold IdentityClaims.bestEffortUsername responseClaims
  simp only [Option.or_eq_none_iff, hnone]
  simp

/-- The claims of a response say of its body what the specification asks, field by field. -/
theorem mapped_responseClaims {map : List (String × JsonValue)} {expiresAt : Option SystemTime}
    (h : responseExpiry map = some expiresAt) : Mapped map (responseClaims map expiresAt) where
  extra := rfl
  subject := isMember_bind map "sub"
  preferredUsername := isMember_bind map "username"
  email := isMember_bind map "email"
  clientId := isMember_bind map "client_id"
  scope := isMember_bind map "scope"
  name := rfl
  expiresAt n t hexp hn ht := by
    rw [responseExpiry_of_int hexp hn ht] at h
    exact (Option.some.inj h).symm

/-! ## Classification

Three results, each under its own condition. No body satisfies two of them. -/

section Classified

variable {body : JsonValue} {map : List (String × JsonValue)}

/-- A body says one thing about whether its token is active. -/
theorem Active.unique {a b : Bool} {map' : List (String × JsonValue)} (h : Active a body map)
    (h' : Active b body map') : map' = map ∧ b = a := by
  obtain ⟨rfl, hactive⟩ := h
  obtain ⟨hbody, hactive'⟩ := h'
  obtain rfl := JsonValue.object.inj hbody
  rw [hactive] at hactive'
  exact ⟨rfl, (JsonValue.bool.inj (Option.some.inj hactive')).symm⟩

/-- An inactive token is an invalid credential. -/
theorem classified_inactive (h : Active false body map) (detail : String) :
    Classified body (.error (.invalidCredential detail)) := by
  have hnot : ¬ ∃ map, Identified body map := by
    rintro ⟨map', hactive, -⟩
    exact absurd (h.unique hactive).2 (by decide)
  constructor
  case inactive => exact iff_of_true ⟨_, rfl, rfl⟩ ⟨map, h⟩
  case identified => exact iff_of_false (by rintro ⟨claims, hok⟩; cases hok) hnot
  case fault =>
    refine iff_of_false ?_ fun hfault => hfault.1 ⟨map, h⟩
    rintro ⟨e, he, hstatus⟩
    obtain rfl := Except.error.inj he
    simp [AuthError.status] at hstatus
  case mapped =>
    intro claims hok
    cases hok

/-- A body that says neither is a fault of the endpoint. -/
theorem classified_fault (hinactive : ¬ ∃ map, Active false body map)
    (hidentified : ¬ ∃ map, Identified body map) (detail : String) :
    Classified body (.error (.upstream detail)) := by
  constructor
  case inactive =>
    refine iff_of_false ?_ hinactive
    rintro ⟨e, he, hstatus⟩
    obtain rfl := Except.error.inj he
    simp [AuthError.status] at hstatus
  case identified => exact iff_of_false (by rintro ⟨claims, hok⟩; cases hok) hidentified
  case fault => exact iff_of_true ⟨_, rfl, rfl⟩ ⟨hinactive, hidentified⟩
  case mapped =>
    intro claims hok
    cases hok

/-- A token that is active and identified has the claims of the body. -/
theorem classified_ok {claims : IdentityClaims} (h : Identified body map)
    (hmapped : Mapped map claims) : Classified body (.ok claims) := by
  have hnot : ¬ ∃ map, Active false body map := by
    rintro ⟨map', hactive⟩
    exact absurd (h.1.unique hactive).2 (by decide)
  constructor
  case inactive => exact iff_of_false (by rintro ⟨e, he, -⟩; cases he) hnot
  case identified => exact iff_of_true ⟨claims, rfl⟩ ⟨map, h⟩
  case fault => exact iff_of_false (by rintro ⟨e, he, -⟩; cases he) fun hfault => hfault.2 ⟨map, h⟩
  case mapped =>
    intro claims' hok
    obtain rfl := Except.ok.inj hok
    exact ⟨map, h.1.1, hmapped⟩

end Classified

/-! ## The three ways

What the function computes, in the order of the source: first whether there is an answer about the
token at all, then whether it is active, then who it is. -/

/-- What is no object with a boolean `active` is the endpoint's fault, and not the token's. -/
theorem claimsFromResponse_other {body : JsonValue} (h : ∀ active map, ¬ Active active body map) :
    ∃ detail, claimsFromResponse body = some (.error (.upstream detail)) := by
  cases body with
  | object map =>
    have hactive : (map.lookup "active").bind JsonValue.asBool = none := by
      rw [Option.eq_none_iff_forall_ne_some]
      intro active hsome
      obtain ⟨j, hj, hbool⟩ := Option.bind_eq_some_iff.mp hsome
      obtain rfl := JsonValue.asBool_eq_some.mp hbool
      exact h active map ⟨rfl, hj⟩
    unfold claimsFromResponse
    simp only [hactive]
    exact ⟨_, rfl⟩
  | _ => exact ⟨_, rfl⟩

/-- An inactive token is refused before anything else is looked at. -/
theorem claimsFromResponse_inactive {body : JsonValue} {map : List (String × JsonValue)}
    (h : Active false body map) :
    claimsFromResponse body = some (.error (.invalidCredential "token is not active")) := by
  obtain ⟨rfl, hactive⟩ := h
  unfold claimsFromResponse
  simp only [hactive, Option.bind_some, JsonValue.asBool]

/-- An active token: the expiry comes first, and may overflow; then there has to be something that
identifies it. -/
theorem claimsFromResponse_active {body : JsonValue} {map : List (String × JsonValue)}
    (h : Active true body map) :
    claimsFromResponse body = (responseExpiry map).bind fun expiresAt =>
      if (responseClaims map expiresAt).bestEffortUsername = none then
        some (.error (.upstream
          "introspection reported an active token carrying no identity claim"))
      else some (.ok (responseClaims map expiresAt)) := by
  obtain ⟨rfl, hactive⟩ := h
  unfold claimsFromResponse
  simp only [hactive, Option.bind_some, JsonValue.asBool]
  rfl

/-- The claims of an active token are made unless its expiry overflows. -/
theorem overflows_iff {body : JsonValue} {map : List (String × JsonValue)}
    (h : Active true body map) : Overflows body ↔ responseExpiry map = none := by
  rw [responseExpiry_eq_none_iff]
  constructor
  · rintro ⟨map', n, h', hn⟩
    obtain ⟨rfl, -⟩ := h.unique h'
    exact ⟨n, hn⟩
  · rintro ⟨n, hn⟩
    exact ⟨map, n, h, hn⟩

/-- An active token whose expiry can be represented is classified as the specification says. -/
theorem classified_active {body : JsonValue} {map : List (String × JsonValue)}
    {expiresAt : Option SystemTime} (h : Active true body map)
    (hexpiry : responseExpiry map = some expiresAt) :
    ∃ result, claimsFromResponse body = some result ∧ Classified body result := by
  rw [claimsFromResponse_active h, hexpiry, Option.bind_some]
  by_cases hname : (responseClaims map expiresAt).bestEffortUsername = none
  · rw [if_pos hname]
    refine ⟨_, rfl, classified_fault ?_ ?_ _⟩
    · rintro ⟨map', h'⟩
      exact absurd (h.unique h').2 (by decide)
    · rintro ⟨map', h', hmember⟩
      obtain ⟨rfl, -⟩ := h.unique h'
      exact bestEffortUsername_responseClaims.mp hname hmember
  · rw [if_neg hname]
    have hidentified : Identified body map :=
      ⟨h, by_contra fun hmember => hname (bestEffortUsername_responseClaims.mpr hmember)⟩
    exact ⟨_, rfl, classified_ok hidentified (mapped_responseClaims hexpiry)⟩

/-- **A body is classified, unless the token is active and expires out of range.** Case split on
what the body says; in the one case left, the addition aborts the request. -/
theorem classified_iff (body : JsonValue) :
    (∃ result, claimsFromResponse body = some result ∧ Classified body result)
      ↔ ¬ Overflows body := by
  by_cases hactive : ∃ map, Active true body map
  · obtain ⟨map, hactive⟩ := hactive
    rw [overflows_iff hactive]
    cases hexpiry : responseExpiry map with
    | none =>
      refine iff_of_false ?_ fun h => h rfl
      rintro ⟨result, hresult, -⟩
      rw [claimsFromResponse_active hactive, hexpiry] at hresult
      cases hresult
    | some expiresAt => exact iff_of_true (classified_active hactive hexpiry) (by simp)
  · -- no claims are made, so no expiry is read
    refine iff_of_true ?_ fun ⟨map, n, h, _⟩ => hactive ⟨map, h⟩
    by_cases hinactive : ∃ map, Active false body map
    · obtain ⟨map, hinactive⟩ := hinactive
      exact ⟨_, claimsFromResponse_inactive hinactive, classified_inactive hinactive _⟩
    · have hother : ∀ active map, ¬ Active active body map := by
        intro active map h
        cases active with
        | true => exact hactive ⟨map, h⟩
        | false => exact hinactive ⟨map, h⟩
      obtain ⟨detail, hresult⟩ := claimsFromResponse_other hother
      exact ⟨_, hresult, classified_fault hinactive (fun ⟨map, h⟩ => hactive ⟨map, h.1⟩) detail⟩

/-! ### Two responses

The same response with two expiries, one of them the first second that is out of range. -/

def expiringResponse (exp : ℤ) : JsonValue :=
  .object [("active", .bool true), ("sub", .string "svc-1"), ("exp", .int exp)]

theorem classified_expiring :
    ∃ result, claimsFromResponse (expiringResponse 1700000000) = some result
      ∧ Classified (expiringResponse 1700000000) result := by
  apply (classified_iff _).mpr
  rintro ⟨map, n, ⟨hbody, -⟩, hexp, hle, -⟩
  obtain rfl := JsonValue.object.inj hbody
  obtain rfl : 1700000000 = n := JsonValue.int.inj (Option.some.inj hexp)
  omega

/-- The first second after the last instant aborts the request. -/
theorem claimsFromResponse_overflow :
    claimsFromResponse (expiringResponse (2 ^ 63)) = none := by
  have hactive : Active true (expiringResponse (2 ^ 63))
      [("active", .bool true), ("sub", .string "svc-1"), ("exp", .int (2 ^ 63))] := ⟨rfl, rfl⟩
  rw [claimsFromResponse_active hactive, responseExpiry_eq_none_iff.mpr ⟨2 ^ 63, rfl, by omega⟩]
  rfl

end AuthnKit
