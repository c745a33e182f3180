import AuthnKit.Adapters.Cookies
import AuthnKit.Adapters.CookieText
import AuthnKit.Foundation.JsonText
import AuthnKit.Oidc.Login

/-!
# AuthnKit — the protection cookie, there and back

`ProtectionData` of `src/oidc/login.rs` goes to the browser as a `Set-Cookie` and comes back among
the cookies of a request. On the way it is JSON, base64, the value of a directive, a piece of a
header and an entry of a map.

* **`ProtectionSerde.json`** — the JSON that serde derives, for what it writes itself.
* **`splitOnce_display`** — the pair a browser takes out of a `Set-Cookie`.
* **`cookie_of_sent`** — the value axum finds among everything that is sent.
* **`protection_survives`** — the whole way.
-/

namespace AuthnKit

/-! ## JSON

The derived instances write an object with the fields as members, in order. It is read back member
by member, each in front of the rest. -/

/-- Everything is serialised, and deserialised again. -/
def ProtectionSerde.Lossless (serde : ProtectionSerde) : Prop :=
  ∀ p, ∃ json, serde.toVec p = .ok json ∧ serde.fromSlice json = .ok p

theorem ProtectionSerde.Lossless.roundTrips {serde : ProtectionSerde} (h : serde.Lossless) :
    serde.RoundTrips := by
  intro p json hjson
  obtain ⟨json', hjson', hback⟩ := h p
  obtain rfl := Except.ok.inj (hjson.symm.trans hjson')
  exact hback

theorem ProtectionSerde.Lossless.encode {serde : ProtectionSerde} (h : serde.Lossless)
    (p : ProtectionData) : ∃ value, p.encode serde = .ok value := by
  obtain ⟨json, hjson, -⟩ := h p
  unfold ProtectionData.encode
  rw [hjson]
  exact ⟨_, rfl⟩

namespace ProtectionData

open JsonText

def verifierJson : Option String → List Char
  | some verifier => quote verifier
  | none => "null".toList

def readVerifier (l : List Char) : Option (Option String × List Char) :=
  match expect "null" l with
  | some rest => some (none, rest)
  | none => (readQuoted l).map fun read => (some read.1, read.2)

/-- The members, in the order of the fields. -/
def toJson (p : ProtectionData) : List Char :=
  "\x7b\"csrf\":".toList ++ (quote p.csrf
    ++ (",\"nonce\":".toList ++ (quote p.nonce
    ++ (",\"pkce_verifier\":".toList ++ (verifierJson p.pkceVerifier
    ++ (",\"destination\":".toList ++ (quote p.destination ++ "\x7d".toList)))))))

def ofJson (l : List Char) : Option ProtectionData := do
  let l ← expect "\x7b\"csrf\":" l
  let (csrf, l) ← readQuoted l
  let l ← expect ",\"nonce\":" l
  let (nonce, l) ← readQuoted l
  let l ← expect ",\"pkce_verifier\":" l
  let (pkceVerifier, l) ← readVerifier l
  let l ← expect ",\"destination\":" l
  let (destination, _) ← readQuoted l
  return { csrf, nonce, pkceVerifier, destination }

/-- The verifier is read back, whether there is one or not. -/
theorem readVerifier_verifierJson (verifier : Option String) (rest : List Char) :
    readVerifier (verifierJson verifier ++ rest) = some (verifier, rest) := by
  cases verifier with
  | none =>
    unfold readVerifier verifierJson
    rw [expect_append]
  | some verifier =>
    have hquoted : expect "null" (quote verifier ++ rest) = none := by
      simp [expect, quote]
    unfold readVerifier verifierJson
    rw [hquoted, readQuoted_quote]
    rfl

/-- An object that was written is read as what it was written for. -/
theorem ofJson_toJson (p : ProtectionData) : ofJson p.toJson = some p := by
  unfold ofJson toJson
  simp only [expect_append, readQuoted_quote, readVerifier_verifierJson, Option.bind_eq_bind,
    Option.bind_some]
  rfl

end ProtectionData

/-- The JSON of the derived instances. -/
def ProtectionSerde.json : ProtectionSerde where
  toVec p := .ok (String.ofList p.toJson).toUTF8.data.toList
  fromSlice bytes :=
    match (String.fromUTF8? ⟨bytes.toArray⟩).bind fun text => ProtectionData.ofJson text.toList with
    | some p => .ok p
    | none => .error "expected value at line 1 column 1"
  decodeError _ := "Invalid byte"

/-- The derived JSON loses nothing, whatever the secrets and the destination are. -/
theorem ProtectionSerde.lossless_json : ProtectionSerde.json.Lossless := by
  intro p
  refine ⟨_, rfl, ?_⟩
  unfold json
  simp only [Text.fromUTF8?_eq_some_iff.mpr rfl, Option.bind_some, String.toList_ofList,
    ProtectionData.ofJson_toJson]

/-! ## Set-Cookie

The value is Base64 and the name a token, so neither ends the pair at the start of the header early.
-/

/-- A character of a cookie's name: visible ASCII that separates nothing. -/
def TokenChar (c : Char) : Prop :=
  0x21 ≤ c.toNat ∧ c.toNat < 0x7F ∧ c ∉ "()<>@,;:\\\"/[]?=\x7b\x7d".toList

instance (c : Char) : Decidable (TokenChar c) := inferInstanceAs (Decidable (_ ∧ _))

structure CookieToken (name : String) : Prop where
  nonempty : name ≠ ""
  chars : Text.All TokenChar name

/-- A character that a cookie value may hold anywhere. -/
def PlainChar (c : Char) : Prop := c.isAlphanum = true ∨ c = '-' ∨ c = '_'

theorem plain_base64 {bytes : List UInt8} :
    Text.All PlainChar (Base64.encode .urlSafe bytes) := by
  have hall : (Base64.Alphabet.urlSafe.symbols.all fun c =>
      c.isAlphanum || c == '-' || c == '_') = true := by decide +kernel
  intro c hc
  have hc' := List.all_eq_true.mp hall c (Base64.mem_symbols_of_mem_encode hc)
  simpa [PlainChar, or_assoc] using hc'

theorem plain_of_encode {serde : ProtectionSerde} {p : ProtectionData} {value : String}
    (h : p.encode serde = .ok value) : Text.All PlainChar value := by
  unfold ProtectionData.encode at h
  cases hjson : serde.toVec p with
  | error e =>
    rw [hjson] at h
    cases h
  | ok json =>
    rw [hjson] at h
    rw [← Except.ok.inj h]
    exact plain_base64

theorem PlainChar.ne {c : Char} (h : PlainChar c) : c ≠ ';' ∧ c ≠ '=' := by
  rcases h with h | rfl | rfl
  · constructor <;> (rintro rfl; exact absurd h (by decide))
  · decide
  · decide

theorem PlainChar.isWhitespace {c : Char} (h : PlainChar c) : Text.isWhitespace c = false := by
  rcases h with h | rfl | rfl
  · have hrange : 0x30 ≤ c.toNat ∧ c.toNat ≤ 0x7A := by
      simp only [Char.isAlphanum, Char.isAlpha, Char.isUpper, Char.isLower, Char.isDigit,
        Bool.or_eq_true, Bool.and_eq_true, decide_eq_true_eq, ge_iff_le,
        UInt32.le_iff_toNat_le] at h
      have hval : c.val.toNat = c.toNat := rfl
      rw [hval] at h
      simp only [Char.reduceVal, UInt32.reduceToNat] at h
      omega
    exact Text.isWhitespace_of_visible (by omega) (by omega)
  · decide
  · decide

theorem TokenChar.ne {c : Char} (h : TokenChar c) : c ≠ ';' ∧ c ≠ '=' := by
  constructor <;> (rintro rfl; exact h.2.2 (by decide))

theorem TokenChar.isWhitespace {c : Char} (h : TokenChar c) : Text.isWhitespace c = false := by
  obtain ⟨hlow, hhigh, -⟩ := h
  exact Text.isWhitespace_of_visible hlow hhigh

section Display

variable {c : CookieSettings} {value : String}

/-- **The pair at the start of a `Set-Cookie`** ends at the first `;`, and its name at the first
`=`. -/
theorem splitOnce_display (hname : CookieToken c.name) (hvalue : Text.All PlainChar value) :
    ∃ pair attributes, Text.splitOnce ';' (c.set value).display = some (pair, attributes)
      ∧ Text.splitOnce '=' pair = some (c.name, value) := by
  have hpair : Text.splitOnce '=' (c.name ++ "=" ++ value) = some (c.name, value) := by
    rw [Text.splitOnce_eq_some_iff]
    exact ⟨fun h => (hname.chars '=' h).ne.2 rfl, rfl⟩
  have hsemicolon : ';' ∉ (c.name ++ "=" ++ value).toList := by
    simp only [String.toList_append, List.mem_append, not_or]
    exact ⟨⟨fun h => (hname.chars ';' h).ne.1 rfl, by decide⟩, fun h => (hvalue ';' h).ne.1 rfl⟩
  -- the path is always there, so an attribute follows
  obtain ⟨rest, hrest⟩ : ∃ rest, (c.set value).attributes = String.singleton ';' ++ rest := by
    have hpath : (c.set value).path = some c.path := rfl
    have hstart : ("; Path=" : String) = String.singleton ';' ++ " Path=" := by decide
    unfold CookieDirective.attributes
    simp only [hpath, Option.map_some, Option.getD_some, hstart, String.append_assoc]
    exact ⟨_, rfl⟩
  refine ⟨c.name ++ "=" ++ value, rest, ?_, hpair⟩
  rw [Text.splitOnce_eq_some_iff]
  refine ⟨hsemicolon, ?_⟩
  rw [String.append_assoc, ← hrest]
  rfl

end Display

/-! ## What is sent

A browser sends the cookie among others, in one header or in several. The adapter has to find it
there whatever the others are. -/

/-- A cookie among those a browser sends. -/
structure SentCookie where
  name : String
  value : String
  /-- A semicolon ends a cookie, and an equals sign its name. -/
  name_free : Text.All (fun c => c ≠ ';' ∧ c ≠ '=') name
  /-- Whitespace before a name is no part of it. -/
  name_start : ∀ c, name.toList.head? = some c → Text.isWhitespace c = false
  value_free : ';' ∉ value.toList

namespace SentCookie

def text (x : SentCookie) : String := x.name ++ "=" ++ x.value

def header : List SentCookie → String
  | [] => ""
  | x :: rest => Text.join ';' (x.text :: rest.map fun y => " " ++ y.text)

/-- The value without the whitespace at its end. -/
def trimmed (x : SentCookie) : String :=
  String.ofList (x.value.toList.reverse.dropWhile Text.isWhitespace).reverse

theorem text_free (x : SentCookie) : ';' ∉ x.text.toList := by
  unfold text
  simp only [String.toList_append, List.mem_append, not_or]
  exact ⟨⟨fun h => (x.name_free ';' h).1 rfl, by decide⟩, x.value_free⟩

/-- What is left of a cookie once the space around it is trimmed. -/
theorem trim_text (x : SentCookie) : Text.trim x.text = x.name ++ "=" ++ x.trimmed := by
  have htext : x.text.toList = x.name.toList ++ '=' :: x.value.toList := by
    simp [text]
  have hstart : ∀ c, x.text.toList.head? = some c → Text.isWhitespace c = false := by
    intro c hc
    rw [htext] at hc
    cases hname : x.name.toList with
    | nil =>
      rw [hname] at hc
      obtain rfl : '=' = c := by simpa using hc
      decide
    | cons first rest =>
      rw [hname] at hc
      exact x.name_start c (by rw [hname]; exact hc)
  have hend : (x.name.toList ++ '=' :: x.value.toList).reverse.dropWhile Text.isWhitespace
      = x.value.toList.reverse.dropWhile Text.isWhitespace ++ '=' :: x.name.toList.reverse := by
    rw [List.reverse_append, List.reverse_cons, List.append_assoc, List.dropWhile_append]
    split
    next hnil =>
      rw [List.isEmpty_iff] at hnil
      rw [hnil]
      exact List.dropWhile_cons_of_neg (by decide)
    next => rfl
  unfold Text.trim trimmed
  rw [Text.dropWhile_eq_self hstart, htext, hend, ← String.toList_inj]
  simp

theorem splitOnce_trim (x : SentCookie) :
    Text.splitOnce '=' (Text.trim x.text) = some (x.name, x.trimmed) := by
  rw [trim_text, Text.splitOnce_eq_some_iff]
  exact ⟨fun h => (x.name_free '=' h).2 rfl, rfl⟩

/-- A header is split into its cookies. -/
theorem pairs_header (sent : List SentCookie) :
    ((Text.split ';' (header sent)).map Text.trim).filterMap (Text.splitOnce '=')
      = sent.map fun x => (x.name, x.trimmed) := by
  cases sent with
  | nil => decide
  | cons x rest =>
    have hfree : ∀ piece ∈ x.text :: rest.map (fun y => " " ++ y.text), ';' ∉ piece.toList := by
      intro piece hp
      rcases List.mem_cons.mp hp with rfl | hp
      · exact x.text_free
      · obtain ⟨y, -, rfl⟩ := List.mem_map.mp hp
        rw [String.toList_append, List.mem_append, not_or]
        exact ⟨by decide, y.text_free⟩
    have hspace : ∀ y : SentCookie, Text.trim (" " ++ y.text) = Text.trim y.text := by
      intro y
      have hblank : Text.Blank " " := by
        intro c hc
        obtain rfl : c = ' ' := by simpa using hc
        decide
      have hempty : Text.Blank "" := Text.trim_eq_empty_iff.mp rfl
      have htrim := Text.trim_surround (s := y.text) hblank hempty
      rwa [String.append_empty] at htrim
    rw [header, Text.split_join_self (by simp) hfree, List.map_cons, List.map_map,
      List.filterMap_cons_some x.splitOnce_trim, List.filterMap_map, List.map_cons]
    congr 1
    rw [← List.filterMap_eq_map]
    apply List.filterMap_congr
    intro y _
    simp only [Function.comp_apply, hspace, splitOnce_trim]

/-- **The pairs axum takes are the cookies sent**, in whatever headers. -/
theorem cookiePairs_header (sent : List (List SentCookie)) :
    cookiePairs (sent.map header) = sent.flatten.map fun x => (x.name, x.trimmed) := by
  unfold cookiePairs cookiePieces
  induction sent with
  | nil => rfl
  | cons xs sent ih =>
    rw [List.map_cons, List.flatMap_cons, List.map_append, List.filterMap_append, pairs_header, ih,
      List.flatten_cons, List.map_append]

theorem trimmed_of_plain {x : SentCookie} (h : Text.All PlainChar x.value) :
    x.trimmed = x.value := by
  unfold trimmed
  rw [Text.dropWhile_eq_self, List.reverse_reverse, String.ofList_toList]
  intro c hc
  exact (h c (List.mem_reverse.mp (List.mem_of_head? hc))).isWhitespace

end SentCookie

/-- **A cookie is found among all that are sent**, if no other has its name. -/
theorem cookie_of_sent {parts : HttpParts} {sent : List (List SentCookie)} {name value : String}
    (hheaders : parts.cookieHeaders = sent.map SentCookie.header)
    (hvisible : ∀ header ∈ parts.cookieHeaders, Text.All Visible header)
    (hplain : Text.All PlainChar value)
    (hown : ∃ x ∈ sent.flatten, x.name = name ∧ x.value = value)
    (hothers : ∀ x ∈ sent.flatten, x.name = name → x.value = value) :
    (Axum.request parts).cookie name = some value := by
  rw [cookie_axum hvisible, hheaders, SentCookie.cookiePairs_header]
  have htrimmed : ∀ x ∈ sent.flatten, x.name = name → x.trimmed = value := by
    intro x hx hname
    have hvalue := hothers x hx hname
    rw [SentCookie.trimmed_of_plain (hvalue ▸ hplain), hvalue]
  apply Table.lastValue_of_perm_iff.mpr _ _ (List.Perm.refl _)
  constructor
  · obtain ⟨x, hx, hname, -⟩ := hown
    exact ⟨x.trimmed, List.mem_map.mpr ⟨x, hx, by rw [hname]⟩⟩
  · intro w hw
    obtain ⟨x, hx, hpair⟩ := List.mem_map.mp hw
    obtain ⟨hname, rfl⟩ := Prod.mk.inj hpair
    exact htrimmed x hx hname

/-! ## The whole way

Encoded, set, sent back, found and decoded. -/

/-- **Protection data survives the cookie**, for every content of it and among any other cookies: it
is encoded in plain characters, set as a pair that is found again, and read from the request as it
was. -/
theorem protection_survives {serde : ProtectionSerde} (hserde : serde.Lossless) (p : ProtectionData)
    {c : CookieSettings} (hname : CookieToken c.name) :
    ∃ value, p.encode serde = .ok value ∧ Text.All PlainChar value
      ∧ (∃ pair attributes, Text.splitOnce ';' (c.set value).display = some (pair, attributes)
        ∧ Text.splitOnce '=' pair = some (c.name, value))
      ∧ ∀ (parts : HttpParts) (sent : List (List SentCookie)),
        parts.cookieHeaders = sent.map SentCookie.header →
        (∀ header ∈ parts.cookieHeaders, Text.All Visible header) →
        (∃ x ∈ sent.flatten, x.name = c.name ∧ x.value = value) →
        (∀ x ∈ sent.flatten, x.name = c.name → x.value = value) →
        ∃ raw, (Axum.request parts).cookie c.name = some raw
          ∧ ProtectionData.decode serde raw = .ok p := by
  obtain ⟨value, hvalue⟩ := hserde.encode p
  have hplain : Text.All PlainChar value := plain_of_encode hvalue
  refine ⟨value, hvalue, hplain, splitOnce_display hname hplain, ?_⟩
  intro parts sent hheaders hvisible hown hothers
  exact ⟨value, cookie_of_sent hheaders hvisible hplain hown hothers,
    ProtectionData.decode_of_encode hserde.roundTrips hvalue⟩

/-! ### One cookie

Protection data with quotes in them, and a second cookie beside theirs. -/

def quotedData : ProtectionData := ⟨"a;b", "n", some "v", "/x?q=\"ü\""⟩

def quotedCookie : String :=
  "eyJjc3JmIjoiYTtiIiwibm9uY2UiOiJuIiwicGtjZV92ZXJpZmllciI6InYiLCJkZXN0"
    ++ "aW5hdGlvbiI6Ii94P3E9XCLDvFwiIn0"

def themeCookie : SentCookie where
  name := "theme"
  value := "dark"
  name_free := by decide +kernel
  name_start c hc := by
    obtain rfl : 't' = c := by simpa using hc
    decide
  value_free := by decide

def quotedSent : SentCookie where
  name := "protection"
  value := quotedCookie
  name_free := by decide +kernel
  name_start c hc := by
    obtain rfl : 'p' = c := by simpa using hc
    decide
  value_free := by decide +kernel

def quotedParts : HttpParts where
  method := "GET"
  path := "/callback"
  matchedPath := none
  query := none
  headers := [("cookie", "theme=dark; protection=" ++ quotedCookie), ("Cookie", "theme=dark")]

/-- These are read back from a request that carries both. -/
theorem quotedData_survives :
    quotedData.encode .json = .ok quotedCookie
      ∧ ∃ raw, (Axum.request quotedParts).cookie "protection" = some raw
        ∧ ProtectionData.decode .json raw = .ok quotedData := by
  have hname : CookieToken (CookieSettings.ofProtection "protection").name :=
    ⟨by decide, by decide +kernel⟩
  have hencode : quotedData.encode .json = .ok quotedCookie := by decide +kernel
  obtain ⟨value, hvalue, -, -, hrequest⟩ :=
    protection_survives ProtectionSerde.lossless_json quotedData hname
  obtain rfl : quotedCookie = value := Except.ok.inj (hencode.symm.trans hvalue)
  refine ⟨hencode, hrequest quotedParts [[themeCookie, quotedSent], [themeCookie]] ?_ ?_ ?_ ?_⟩
  · decide +kernel
  · have hall : (quotedParts.cookieHeaders.all fun header =>
        header.toList.all fun c => decide (Visible c)) = true := by decide +kernel
    intro header hheader c hc
    exact of_decide_eq_true (List.all_eq_true.mp (List.all_eq_true.mp hall header hheader) c hc)
  · exact ⟨quotedSent, by simp, rfl, rfl⟩
  · intro x hx hsame
    simp only [List.flatten_cons, List.flatten_nil, List.append_nil, List.mem_append, List.mem_cons,
      List.not_mem_nil, or_false] at hx
    rcases hx with (rfl | rfl) | rfl
    · exact absurd hsame (by decide)
    · rfl
    · exact absurd hsame (by decide)

end AuthnKit
