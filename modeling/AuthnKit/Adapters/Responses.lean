import AuthnKit.Adapters.SetCookie
import AuthnKit.Core.Identity

/-!
# AuthnKit — errors as responses

`impl IntoResponse for AuthError` of `src/adapters/axum.rs` and `error_to_response` of
`src/adapters/actix.rs`. Both build a response part by part, and a location or a cookie that is no
header value surfaces only when the response is finished: axum's adapter answers with an empty
`500` then, actix's builder with a `500` and a text of its own.

* **`Axum.intoResponse`**, **`Actix.errorToResponse`** — the translations.
* **`Axum.Sendable`**, **`Actix.sendable_iff`** — the redirects that axum can send, and that actix can
  send the same ones.
* **`parse_display_actix_iff`** — the cookies that are the same cookie from both adapters.
* **`AuthError.rendered_alike`** — what a client is told of an error, and what it is not.
-/

namespace AuthnKit

inductive LogLevel where
  | error
  | debug
  deriving DecidableEq

def AuthError.logged (e : AuthError) : LogLevel × String :=
  (if e.isServiceFault then .error else .debug, "authn: " ++ e.detail)

/-- `StatusCode::from_u16(status).unwrap_or(INTERNAL_SERVER_ERROR)`. -/
def statusCode (status : ℕ) : ℕ := if 100 ≤ status ∧ status < 1000 then status else 500

/-- `serde_json::json!({ "message": … })`. -/
def messageJson (message : String) : JsonValue := .object [("message", .string message)]

/-! ## Header values

What can be sent as a header is decided by its characters, one by one, so a text can be sent when
its parts can. -/

/-- A character a header value may hold: no control character but the tab. Of what is not ASCII all
bytes are allowed. -/
def isHeaderChar (c : Char) : Bool := c == '\t' || 0x20 ≤ c.toNat && c.toNat != 0x7F

/-- `HeaderValue::try_from(value)` succeeds. -/
def isHeaderValue (value : String) : Bool := value.toList.all isHeaderChar

@[simp] theorem isHeaderValue_append (s t : String) :
    isHeaderValue (s ++ t) = (isHeaderValue s && isHeaderValue t) := by
  unfold isHeaderValue
  rw [String.toList_append, List.all_append]

theorem isHeaderValue_toString (n : ℕ) : isHeaderValue (toString n) = true := by
  unfold isHeaderValue
  apply List.all_eq_true.mpr
  intro c hc
  have hdigit : 48 ≤ c.toNat ∧ c.toNat ≤ 57 := by
    have h := SetCookieText.isDigit_of_mem_toString hc
    simpa [Char.isDigit, UInt32.le_iff_toNat_le] using h
  unfold isHeaderChar
  simp only [Bool.or_eq_true, Bool.and_eq_true, decide_eq_true_eq, bne_iff_ne]
  omega

/-! ## axum -/

namespace Axum

structure Response where
  status : ℕ
  headers : List (String × String)
  body : Option JsonValue

def redirectHeaders (location : String) (cookies : List CookieDirective) : List (String × String) :=
  ("location", location) :: cookies.map fun directive => ("set-cookie", directive.display)

/-- `impl IntoResponse for AuthError`. -/
def intoResponse : AuthError → Response
  | .redirect location cookies =>
    -- a header that cannot be sent surfaces when the response is built
    if (redirectHeaders location cookies).all fun h => isHeaderValue h.2 then
      ⟨302, redirectHeaders location cookies, none⟩
    else ⟨500, [], none⟩
  | e => ⟨statusCode e.status, [("content-type", "application/json")],
      some (messageJson e.clientMessage)⟩

end Axum

/-! ## actix -/

namespace Actix

/-- `text` stands for what the builder says of its own failure. -/
inductive Body where
  | empty
  | json (value : JsonValue)
  | text

structure Response where
  status : ℕ
  location : Option String
  cookies : List Cookie
  body : Body

/-- What a cookie is written with besides its text's own words and its lifetime. -/
def Cookie.texts (c : Cookie) : List String :=
  [c.name, c.value] ++ c.path.toList ++ c.domain.toList

/-- Everything the builder was handed is a header value, also each cookie as it is written. -/
def sendable (location : String) (cookies : List Cookie) : Bool :=
  isHeaderValue location && cookies.all fun cookie => cookie.texts.all isHeaderValue

/-- What a builder with a location and cookies finishes with. -/
def finish (location : String) (cookies : List Cookie) : Response :=
  if sendable location cookies then ⟨302, some location, cookies, .empty⟩
  -- the builder keeps the error of a header until it is finished
  else ⟨500, none, [], .text⟩

def errorToResponse : AuthError → Response
  | .redirect location cookies => finish location (cookies.map fromDirective)
  | e => ⟨statusCode e.status, none, [], .json (messageJson e.clientMessage)⟩

/-- The fields of the cookie, in the terms of a user agent. -/
def Cookie.sent (c : Cookie) : SetCookieText.Cookie where
  name := c.name
  value := c.value
  maxAge := c.displayedMaxAge.map Int.toNat
  domain := c.domain
  path := c.path
  secure := c.secure
  httpOnly := c.httpOnly
  sameSite := c.sameSite.map SameSite.display

end Actix

/-! ## Redirects

A redirect carries a location and cookies. If one of them is no header value, axum falls back to an
error of its own. -/

namespace Axum

/-- Everything a redirect carries can be sent. -/
def Sendable (location : String) (cookies : List CookieDirective) : Prop :=
  isHeaderValue location = true ∧ ∀ d ∈ cookies, isHeaderValue d.display = true

/-- All the headers of a redirect are header values exactly when everything it carries can be sent.
-/
theorem sendable_iff {location : String} {cookies : List CookieDirective} :
    ((redirectHeaders location cookies).all fun h => isHeaderValue h.2) = true
      ↔ Sendable location cookies := by
  unfold redirectHeaders Sendable
  simp [List.all_eq_true]

theorem intoResponse_of_sendable {location : String} {cookies : List CookieDirective}
    (h : Sendable location cookies) :
    intoResponse (.redirect location cookies) = ⟨302, redirectHeaders location cookies, none⟩ :=
  if_pos (sendable_iff.mpr h)

/-- A redirect that cannot be sent is an internal error without headers. -/
theorem intoResponse_of_not_sendable {location : String} {cookies : List CookieDirective}
    (h : ¬ Sendable location cookies) :
    intoResponse (.redirect location cookies) = ⟨500, [], none⟩ :=
  if_neg (mt sendable_iff.mp h)

/-- **No header ends before its end**: none of an answer holds a line break, whatever the error
carries. -/
theorem header_of_intoResponse {e : AuthError} {h : String × String}
    (hmem : h ∈ (intoResponse e).headers) : Text.All (fun c => c ≠ '\r' ∧ c ≠ '\n') h.2 := by
  have hvalue : isHeaderValue h.2 = true := by
    cases e with
    | redirect location cookies =>
      by_cases hsend : Sendable location cookies
      · rw [intoResponse_of_sendable hsend] at hmem
        exact List.all_eq_true.mp (sendable_iff.mpr hsend) h hmem
      · rw [intoResponse_of_not_sendable hsend] at hmem
        exact absurd hmem List.not_mem_nil
    | _ =>
      rw [List.mem_singleton.mp hmem]
      decide +kernel
  intro c hc
  have hchar := List.all_eq_true.mp hvalue c hc
  constructor <;> (rintro rfl; exact absurd hchar (by decide))

end Axum

/-! ## Redirects of both adapters

Both adapters check what they are about to send, axum the texts and actix the parts its cookies are
written from. -/

/-- What is written of a directive besides its parts are header values. -/
theorem isHeaderValue_display (d : CookieDirective) : isHeaderValue d.display = true
    ↔ ∀ text ∈ (Actix.fromDirective d).texts, isHeaderValue text = true := by
  have hmaxAge : isHeaderValue ((d.displayedMaxAge.map fun secs => "; Max-Age=" ++ toString secs).getD
      "") = true := by
    have hlabel : isHeaderValue "; Max-Age=" = true := by decide +kernel
    cases d.displayedMaxAge with
    | none => rfl
    | some secs =>
      rw [Option.map_some, Option.getD_some, isHeaderValue_append, hlabel, isHeaderValue_toString]
      rfl
  have hsameSite : isHeaderValue ((d.sameSite.map ("; SameSite=" ++ ·.display)).getD "") = true := by
    cases d.sameSite with
    | none => rfl
    | some policy => cases policy <;> decide +kernel
  have hflags : isHeaderValue (if d.httpOnly then "; HttpOnly" else "") = true
      ∧ isHeaderValue (if d.secure then "; Secure" else "") = true := by
    constructor <;> (split <;> decide +kernel)
  have hequals : isHeaderValue "=" = true := by decide +kernel
  -- what remains are the texts
  have hoptional : ∀ (label : String) (o : Option String), isHeaderValue label = true →
      isHeaderValue ((o.map (label ++ ·)).getD "") = o.toList.all isHeaderValue := by
    intro label o hlabel
    cases o with
    | none => rfl
    | some text => simp [hlabel]
  unfold CookieDirective.display CookieDirective.attributes Actix.Cookie.texts Actix.fromDirective
  simp only [isHeaderValue_append, hmaxAge, hsameSite, hflags.1, hflags.2, hequals,
    hoptional "; Path=" d.path (by decide +kernel), hoptional "; Domain=" d.domain (by decide +kernel),
    Bool.and_true]
  simp [List.all_eq_true, or_imp, forall_and, and_assoc]

/-- **Both adapters can send the same redirects**, since a text can be sent when its parts can. -/
theorem Actix.sendable_iff {location : String} {cookies : List CookieDirective} :
    sendable location (cookies.map fromDirective) = true ↔ Axum.Sendable location cookies := by
  unfold sendable Axum.Sendable
  simp only [Bool.and_eq_true, List.all_map, List.all_eq_true, Function.comp_apply,
    isHeaderValue_display]

theorem Actix.errorToResponse_of_sendable {location : String} {cookies : List CookieDirective}
    (h : Axum.Sendable location cookies) : errorToResponse (.redirect location cookies)
      = ⟨302, some location, cookies.map fromDirective, .empty⟩ :=
  if_pos (sendable_iff.mpr h)

/-- A redirect that cannot be sent is an internal error there, too. -/
theorem Actix.errorToResponse_of_not_sendable {location : String}
    {cookies : List CookieDirective} (h : ¬ Axum.Sendable location cookies) :
    errorToResponse (.redirect location cookies) = ⟨500, none, [], .text⟩ :=
  if_neg (mt sendable_iff.mp h)

/-! ## The same cookie

axum writes the directive itself, actix a cookie made of it. What a user agent reads is the same but
for a lifetime that actix cannot hold. -/

/-- The cookie is the same from both adapters if its lifetime is: one beyond the signed range is
none at all in actix. -/
theorem sent_fromDirective_iff {d : CookieDirective} : (Actix.fromDirective d).sent = d.sent
    ↔ ∀ maxAge, d.maxAge = some maxAge → maxAge.asSecs < 2 ^ 63 := by
  have hsent : (Actix.fromDirective d).sent = d.sent
      ↔ (Actix.fromDirective d).displayedMaxAge.map Int.toNat = d.displayedMaxAge := by
    constructor
    · exact congrArg SetCookieText.Cookie.maxAge
    · intro h
      unfold Actix.Cookie.sent
      rw [h]
      rfl
  rw [hsent]
  constructor
  · intro h maxAge hmax
    rw [Actix.displayedMaxAge_of_some hmax, CookieDirective.displayedMaxAge_of_some hmax] at h
    by_contra hlarge
    rw [wholeSeconds_tryFrom_of_le (by omega)] at h
    have hzero : 0 = maxAge.asSecs := Option.some.inj h
    omega
  · intro h
    cases hmax : d.maxAge with
    | none => simp [CookieDirective.displayedMaxAge, Actix.Cookie.displayedMaxAge,
        Actix.fromDirective, hmax]
    | some maxAge =>
      rw [Actix.displayedMaxAge_of_some hmax, CookieDirective.displayedMaxAge_of_some hmax,
        wholeSeconds_tryFrom (h maxAge hmax)]
      rfl

/-- **axum's text is actix's cookie** exactly for the directives that can be written down, with a
lifetime that actix can hold. -/
theorem parse_display_actix_iff {d : CookieDirective} :
    SetCookieText.parse d.display = some (Actix.fromDirective d).sent
      ↔ d.Wire ∧ ∀ maxAge, d.maxAge = some maxAge → maxAge.asSecs < 2 ^ 63 := by
  constructor
  · intro h
    -- what is read has the parts of the directive, so it was written from a well-formed cookie
    have hread := SetCookieText.wellFormed_of_parse h
    have hwell : d.sent.WellFormed :=
      { hread with
        sameSite := by
          intro policy hpolicy
          obtain ⟨s, -, rfl⟩ := Option.map_eq_some_iff.mp hpolicy
          exact CookieDirective.SameSite.whole_display s }
    have hreread : some d.sent.reread = some (Actix.fromDirective d).sent := by
      rw [← h, CookieDirective.display_eq_render, SetCookieText.parse_render hwell]
    have hdomain : d.sent.reread = d.sent :=
      congrArg (fun c => { d.sent with domain := c.domain }) (Option.some.inj hreread)
    have hwire := CookieDirective.canonical_sent_iff.mp
      ((SetCookieText.reread_eq_self_iff hwell).mp hdomain)
    rw [hdomain] at hreread
    exact ⟨hwire, sent_fromDirective_iff.mp (Option.some.inj hreread).symm⟩
  · intro ⟨hwire, hlifetime⟩
    rw [sent_fromDirective_iff.mpr hlifetime]
    exact CookieDirective.parse_display hwire

/-! ## Answers

For every error: what the client is told by either adapter, and what it is not told. -/

/-- What a client is told of an error. -/
structure Answers (e : AuthError) : Prop where
  /-- The variant, by both adapters alike, and nothing of what an operator is told. -/
  variant : e.variant ≠ .redirect → ∀ e', e'.variant = e.variant →
    Axum.intoResponse e' = ⟨e.status, [("content-type", "application/json")],
        some (messageJson e.clientMessage)⟩
      ∧ Actix.errorToResponse e' = ⟨e.status, none, [], .json (messageJson e.clientMessage)⟩
  /-- Where to go, with every cookie, from both adapters. -/
  sent : ∀ location cookies, e = .redirect location cookies → Axum.Sendable location cookies →
    Axum.intoResponse e = ⟨302, Axum.redirectHeaders location cookies, none⟩
      ∧ Actix.errorToResponse e = ⟨302, some location, cookies.map Actix.fromDirective, .empty⟩
  /-- Or from neither, if something of it is no header value. -/
  unsent : ∀ location cookies, e = .redirect location cookies → ¬ Axum.Sendable location cookies →
    Axum.intoResponse e = ⟨500, [], none⟩ ∧ Actix.errorToResponse e = ⟨500, none, [], .text⟩
  cookies : ∀ location cookies, e = .redirect location cookies → ∀ d ∈ cookies,
    SetCookieText.parse d.display = some (Actix.fromDirective d).sent
      ↔ d.Wire ∧ ∀ maxAge, d.maxAge = some maxAge → maxAge.asSecs < 2 ^ 63
  headers : ∀ h ∈ (Axum.intoResponse e).headers, Text.All (fun c => c ≠ '\r' ∧ c ≠ '\n') h.2

/-- **Both adapters answer alike**, for every error: with its status and its message or, for a
redirect, with its location and its cookies where they can be sent, and with a failure of their own
where not. -/
theorem AuthError.rendered_alike (e : AuthError) : Answers e where
  variant hvariant e' hsame := by
    have hstatus : e'.status = e.status := by
      cases e <;> cases e' <;> first | rfl | exact absurd hsame (by simp [AuthError.variant])
    have hmessage := (AuthError.clientMessage_eq_iff e' e).mpr hsame
    rw [← hstatus, ← hmessage]
    rw [← hsame] at hvariant
    cases e' with
    | redirect location cookies => exact absurd rfl hvariant
    | _ => exact ⟨rfl, rfl⟩
  sent _ _ he hsend :=
    he ▸ ⟨Axum.intoResponse_of_sendable hsend, Actix.errorToResponse_of_sendable hsend⟩
  unsent _ _ he hsend :=
    he ▸ ⟨Axum.intoResponse_of_not_sendable hsend, Actix.errorToResponse_of_not_sendable hsend⟩
  cookies _ _ _ d _ := parse_display_actix_iff
  headers _ hmem := Axum.header_of_intoResponse hmem

end AuthnKit
