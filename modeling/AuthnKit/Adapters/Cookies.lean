import AuthnKit.Foundation.FormUrlencoded
import AuthnKit.Foundation.Table
import AuthnKit.Foundation.Text
import AuthnKit.Core.Request

/-!
# AuthnKit — the cookies the two adapters see

`src/adapters/axum.rs` and `src/adapters/actix.rs`, as far as they fill in an `AuthRequest`.
axum leaves cookies to the adapter, which reads the `Cookie` headers itself; actix reads them,
and the adapter takes what it is given or, when actix reports an error, nothing.

What actix reads is decided by a library of its own. `CookieParser` is that library as the adapter
relies on it: it percent-decodes names and values, and beside that may take something off them,
such as blanks next to the `=` or a pair of quotes. `parseEncoded` is the one actix ships with.

* **`Axum.request`**, **`Actix.request`** — the two translations of one HTTP request.
* **`HttpParts.cookie_withCookies`** — what each answers for a name: the last value among its pairs.
* **`cookies_agree_iff`** — for which headers the two agree on every name.
* **`Plain.of_unescaped`** — headers of names and values without escapes, quotes and blanks are
  among them, whatever the parser.
-/

namespace AuthnKit

/-! ## The request, as a framework hands it over -/

structure HttpParts where
  method : String
  path : String
  matchedPath : Option String
  query : Option String
  headers : List (String × String)

/-- `headers.get_all(header::COOKIE)`. -/
def HttpParts.cookieHeaders (parts : HttpParts) : List String :=
  (parts.headers.filter fun h => h.1.toLower == "cookie").map (·.2)

/-- What `to_str` accepts of a header value: visible ASCII, space and tab. -/
def Visible (c : Char) : Prop := c = '\t' ∨ 0x20 ≤ c.toNat ∧ c.toNat < 0x7F

instance (c : Char) : Decidable (Visible c) := inferInstanceAs (Decidable (_ ∨ _))

/-- `value.to_str().ok()`. -/
def toStr (value : String) : Option String :=
  if value.toList.all fun c => decide (Visible c) then some value else none

/-- The pieces of a list of `Cookie` headers. -/
def cookiePieces (values : List String) : List String :=
  (values.flatMap (Text.split ';')).map Text.trim

/-! ## axum -/

namespace Axum

def cookiesFromHeaders (values : List String) : List (String × String) :=
  -- a header that is not visible ASCII and a piece without `=` are skipped
  (cookiePieces (values.filterMap toStr)).filterMap (Text.splitOnce '=')

end Axum

def HttpParts.builder (parts : HttpParts) : AuthRequestBuilder :=
  let builder : AuthRequestBuilder := {}
  let builder := builder.method parts.method |>.path parts.path
    |>.routePattern parts.matchedPath |>.query (parts.query.getD "")
  parts.headers.foldl (fun builder h => match toStr h.2 with
    | some value => builder.header h.1 value
    | none => builder) builder

/-- The cookies, added in turn. -/
def AuthRequestBuilder.withCookies (b : AuthRequestBuilder) (cookies : List (String × String)) :
    AuthRequestBuilder :=
  cookies.foldl (fun b cookie => b.cookie cookie.1 cookie.2) b

/-- `impl From<&Parts> for AuthRequest`. -/
def Axum.request (parts : HttpParts) : AuthRequest :=
  (parts.builder.withCookies (Axum.cookiesFromHeaders parts.cookieHeaders)).build

/-! ## actix -/

/-- How bytes that were escaped are read back as text. What is not UTF-8 may be an error or may
be replaced by something outside ASCII. -/
structure Utf8 where
  read : List UInt8 → Option String
  read_text : ∀ s : String, read s.toUTF8.data.toList = some s
  read_ascii : ∀ bytes s, read bytes = some s → Text.All (·.toNat < 0x80) s →
    bytes = s.toUTF8.data.toList

/-- Percent-decoding. -/
def Utf8.decode (utf8 : Utf8) (s : String) : Option String :=
  utf8.read (FormUrlencoded.percentDecode s.toUTF8.data.toList)

namespace Actix

/-- What no parser of cookies changes: visible characters other than quotes and escapes. -/
def Untouched (c : Char) : Prop := (0x21 ≤ c.toNat ∧ c.toNat < 0x7F) ∧ c ≠ '"' ∧ c ≠ '%'

instance (c : Char) : Decidable (Untouched c) := inferInstanceAs (Decidable (_ ∧ _))

/-- The library that reads one piece for actix: what it leaves of a name and of a value before it
decodes them. It may take off what surrounds them, and leaves alone what is not surrounded by
anything. -/
structure CookieParser where
  utf8 : Utf8
  name : String → String
  value : String → String
  name_shortens : ∀ s, name s = s ∨ (name s).utf8ByteSize < s.utf8ByteSize
  name_untouched : ∀ s, Text.All Untouched s → name s = s
  value_untouched : ∀ s, Text.All Untouched s → value s = s

namespace CookieParser

/-- An empty name is an error, and so is one that does not decode. -/
def readName (parser : CookieParser) (s : String) : Option String :=
  if parser.name s = "" then none else parser.utf8.decode (parser.name s)

def readValue (parser : CookieParser) (s : String) : Option String :=
  parser.utf8.decode (parser.value s)

end CookieParser

/-- `Cookie::parse_encoded`, of one piece: an error without `=`. -/
def cookie (parser : CookieParser) (piece : String) : Option (String × String) := do
  let (name, value) ← Text.splitOnce '=' piece
  return (← parser.readName name, ← parser.readValue value)

/-- `request.cookies()`: the cookies of all headers, or one error for the whole request. -/
def cookies (parser : CookieParser) (values : List String) : Option (List (String × String)) :=
  ((cookiePieces values).filter (· ≠ "")).mapM (cookie parser)

/-- `impl From<&ServiceRequest> for AuthRequest`. -/
def request (parser : CookieParser) (parts : HttpParts) : AuthRequest :=
  match cookies parser parts.cookieHeaders with
  | some cookies => (parts.builder.withCookies cookies).build
  -- `if let Ok(cookies)`: one bad piece and there is none
  | none => parts.builder.build

end Actix

/-! ## What a request answers for a name

The request keeps cookies in a map, so of several with one name the last one counts. -/

namespace HttpParts

/-- Before any cookie is added there is none. -/
theorem cookie_builder (parts : HttpParts) (name : String) :
    parts.builder.build.cookie name = none := by
  have hkeep : ∀ (headers : List (String × String)) (b : AuthRequestBuilder),
      (headers.foldl (fun builder h => match toStr h.2 with
        | some value => builder.header h.1 value
        | none => builder) b).request.cookies = b.request.cookies := by
    intro headers
    induction headers with
    | nil => exact fun b => rfl
    | cons h headers ih =>
      intro b
      rw [List.foldl_cons, ih]
      cases toStr h.2 <;> rfl
  unfold builder AuthRequestBuilder.build AuthRequest.cookie
  simp only
  rw [hkeep]
  rfl

/-- **A cookie set several times has its last value**, in either adapter. -/
theorem cookie_withCookies (parts : HttpParts) (cookies : List (String × String)) (name : String) :
    (parts.builder.withCookies cookies).build.cookie name = Table.lastValue name cookies := by
  unfold AuthRequestBuilder.withCookies
  induction cookies using List.reverseRecOn with
  | nil => exact parts.cookie_builder name
  | append_singleton cookies cookie ih =>
    rw [List.foldl_append, Table.lastValue_concat]
    by_cases h : cookie.1 = name
    · rw [if_pos h, ← h]
      exact AuthRequestBuilder.cookie_build_self _ _ _
    · rw [if_neg h, ← ih]
      exact AuthRequestBuilder.cookie_build_of_ne _ (Ne.symm h) _

end HttpParts

/-! ## The pieces actix takes

actix reads all pieces of all headers, or none: a single piece that it cannot read is an error for
the request. -/

namespace Actix

variable {parser : CookieParser}

/-- A piece actix takes: a name and a value, both of which it reads. -/
def Whole (parser : CookieParser) (piece : String) : Prop :=
  ∃ name value, Text.splitOnce '=' piece = some (name, value)
    ∧ parser.readName name ≠ none ∧ parser.readValue value ≠ none

/-- A pair as actix reads it, where it reads it. -/
def decoded (parser : CookieParser) (pair : String × String) : String × String :=
  ((parser.readName pair.1).getD pair.1, (parser.readValue pair.2).getD pair.2)

theorem cookie_of_whole {piece name value : String} (h : Whole parser piece)
    (hsplit : Text.splitOnce '=' piece = some (name, value)) :
    cookie parser piece = some (decoded parser (name, value)) := by
  obtain ⟨name', value', hsplit', hn, hv⟩ := h
  rw [hsplit] at hsplit'
  simp only [Option.some.injEq, Prod.mk.injEq] at hsplit'
  obtain ⟨rfl, rfl⟩ := hsplit'
  obtain ⟨n, hn⟩ := Option.ne_none_iff_exists'.mp hn
  obtain ⟨v, hv⟩ := Option.ne_none_iff_exists'.mp hv
  unfold cookie decoded
  simp [hsplit, hn, hv]

theorem cookie_of_not_whole {piece : String} (h : ¬ Whole parser piece) :
    cookie parser piece = none := by
  unfold cookie
  cases hsplit : Text.splitOnce '=' piece with
  | none => rfl
  | some pair =>
    obtain ⟨name, value⟩ := pair
    cases hn : parser.readName name with
    | none => simp [hn]
    | some n =>
      cases hv : parser.readValue value with
      | none => simp [hn, hv]
      | some v => exact absurd ⟨name, value, hsplit, by simp [hn], by simp [hv]⟩ h

/-- Where every piece is whole, actix decodes the pairs that axum takes as they are written. -/
theorem mapM_of_whole {pieces : List String} (h : ∀ piece ∈ pieces, piece ≠ "" → Whole parser piece) :
    (pieces.filter (· ≠ "")).mapM (cookie parser)
      = some ((pieces.filterMap (Text.splitOnce '=')).map (decoded parser)) := by
  induction pieces with
  | nil => rfl
  | cons piece pieces ih =>
    have hrest := ih fun x hx => h x (List.mem_cons_of_mem piece hx)
    by_cases hempty : piece = ""
    · have hnone : Text.splitOnce '=' piece = none := by
        rw [hempty, Text.splitOnce_eq_none_iff]
        simp
      rw [List.filter_cons_of_neg (by simp [hempty]), List.filterMap_cons_none hnone]
      exact hrest
    · have hwhole := h piece List.mem_cons_self hempty
      obtain ⟨name, value, hsplit, _⟩ := hwhole
      rw [List.filter_cons_of_pos (by simp [hempty]), List.mapM_cons,
        cookie_of_whole (h piece List.mem_cons_self hempty) hsplit, hrest,
        List.filterMap_cons_some hsplit]
      rfl

/-- One piece that is not whole is an error. -/
theorem mapM_of_not_whole {pieces : List String}
    (h : ∃ piece ∈ pieces, piece ≠ "" ∧ ¬ Whole parser piece) :
    (pieces.filter (· ≠ "")).mapM (cookie parser) = none := by
  obtain ⟨bad, hmem, hne, hbad⟩ := h
  induction pieces with
  | nil => exact absurd hmem List.not_mem_nil
  | cons piece pieces ih =>
    rcases List.mem_cons.mp hmem with rfl | hmem
    · rw [List.filter_cons_of_pos (by simp [hne]), List.mapM_cons, cookie_of_not_whole hbad]
      rfl
    · by_cases hempty : piece = ""
      · rw [List.filter_cons_of_neg (by simp [hempty])]
        exact ih hmem
      · rw [List.filter_cons_of_pos (by simp [hempty]), List.mapM_cons, ih hmem]
        cases cookie parser piece <;> rfl

end Actix

/-! ## When decoding changes nothing

Every name is looked up in both adapters, so a name that is escaped somewhere must not be seen under
its decoded form. Decoding makes names shorter, and a finite set of names cannot shrink onto itself.
-/

/-- A map of a finite set onto itself that makes nothing larger, and what it moves smaller, moves
nothing: it permutes the set, so the sizes add up to what they did. -/
theorem fixed_of_image_eq {α : Type} [DecidableEq α] {s : Finset α} {f : α → α} (size : α → ℕ)
    (himage : s.image f = s) (hsize : ∀ x ∈ s, f x = x ∨ size (f x) < size x) :
    ∀ x ∈ s, f x = x := by
  intro x hx
  by_contra hmoved
  have hinj : Set.InjOn f s := by
    apply Finset.card_image_iff.mp
    rw [himage]
  have hsum : ∑ y ∈ s, size (f y) = ∑ y ∈ s, size y := by
    have himg : ∑ y ∈ s.image f, size y = ∑ y ∈ s, size (f y) := Finset.sum_image hinj
    rw [← himg, himage]
  have hlt : ∑ y ∈ s, size (f y) < ∑ y ∈ s, size y := by
    apply Finset.sum_lt_sum
    · intro y hy
      rcases hsize y hy with heq | hlt
      · rw [heq]
      · exact hlt.le
    · exact ⟨x, hx, (hsize x hx).resolve_left hmoved⟩
  omega

namespace Utf8

variable {utf8 : Utf8}

theorem toUTF8_inj {s t : String} (h : s.toUTF8.data.toList = t.toUTF8.data.toList)
    (utf8 : Utf8) : s = t := by
  have hs := utf8.read_text s
  rw [h, utf8.read_text t] at hs
  exact (Option.some.inj hs).symm

theorem decode_shortens {s t : String} (h : utf8.decode s = some t)
    (hascii : Text.All (·.toNat < 0x80) t) : t = s ∨ t.utf8ByteSize < s.utf8ByteSize := by
  have hbytes := utf8.read_ascii _ t h hascii
  rcases FormUrlencoded.percentDecode_shortens s.toUTF8.data.toList with hsame | hshort
  · left
    rw [hsame] at hbytes
    exact (toUTF8_inj hbytes utf8).symm
  · right
    rw [hbytes] at hshort
    exact hshort

theorem decode_of_notMem {s : String} (hascii : Text.All (·.toNat < 0x80) s)
    (h : '%' ∉ s.toList) : utf8.decode s = some s := by
  have hfree : ∀ b ∈ s.toUTF8.data.toList, b.toNat ≠ 0x25 := by
    intro b hb heq
    obtain ⟨c, hc, hbyte⟩ := Text.mem_toUTF8_of_ascii hascii hb
    have hpercent : c = '%' := Char.toNat_inj.mp (hbyte.symm.trans heq)
    exact h (hpercent ▸ hc)
  unfold decode
  rw [FormUrlencoded.percentDecode_of_notMem hfree, utf8.read_text]

end Utf8

namespace Actix

namespace CookieParser

variable {parser : CookieParser} {s t : String}

theorem Untouched.ascii (h : Text.All Untouched s) : Text.All (·.toNat < 0x80) s := by
  intro c hc
  have hlow := (h c hc).1.2
  omega

/-- A name that is read as ASCII was longer, or is read as it is written. -/
theorem readName_shortens (h : parser.readName s = some t)
    (hascii : Text.All (·.toNat < 0x80) t) : t = s ∨ t.utf8ByteSize < s.utf8ByteSize := by
  unfold readName at h
  split at h
  next => exact absurd h (by simp)
  next =>
    rcases parser.name_shortens s with hsame | hshort
    · rw [hsame] at h
      exact Utf8.decode_shortens h hascii
    · right
      rcases Utf8.decode_shortens h hascii with rfl | hless
      · exact hshort
      · exact hless.trans hshort

/-- An untouched name is read as it is written, if it is not empty. -/
theorem readName_of_untouched (h : Text.All Untouched s) (hne : s ≠ "") :
    parser.readName s = some s := by
  unfold readName
  rw [parser.name_untouched s h, if_neg hne]
  exact Utf8.decode_of_notMem (Untouched.ascii h) fun hmem => (h _ hmem).2.2 rfl

theorem readValue_of_untouched (h : Text.All Untouched s) : parser.readValue s = some s := by
  unfold readValue
  rw [parser.value_untouched s h]
  exact Utf8.decode_of_notMem (Untouched.ascii h) fun hmem => (h _ hmem).2.2 rfl

end CookieParser

variable {parser : CookieParser} {pairs : List (String × String)}

def names (pairs : List (String × String)) : Finset String := (pairs.map (·.1)).toFinset

theorem mem_names_iff {name : String} :
    name ∈ names pairs ↔ Table.lastValue name pairs ≠ none := by
  rw [names, List.mem_toFinset, List.mem_map, Ne, Table.lastValue_eq_none_iff]
  push Not
  rfl

/-- **Where the same names are seen decoded and as they are, none is escaped**: reading them maps
the finite set of names onto itself. -/
theorem names_fixed (hascii : ∀ pair ∈ pairs, Text.All (·.toNat < 0x80) pair.1)
    (hdecodes : ∀ pair ∈ pairs, parser.readName pair.1 ≠ none)
    (hsame : ∀ name, Table.lastValue name pairs = none
      ↔ Table.lastValue name (pairs.map (decoded parser)) = none) :
    ∀ pair ∈ pairs, parser.readName pair.1 = some pair.1 := by
  have himage : (names pairs).image (fun s => (parser.readName s).getD s) = names pairs := by
    have hmap : (names pairs).image (fun s => (parser.readName s).getD s)
        = names (pairs.map (decoded parser)) := by
      ext name
      simp [names, decoded]
    rw [hmap]
    ext name
    rw [mem_names_iff, mem_names_iff, Ne, ← hsame name]
  have hmem : ∀ pair ∈ pairs, pair.1 ∈ names pairs := fun pair hp =>
    List.mem_toFinset.mpr (List.mem_map_of_mem hp)
  have hsize : ∀ name ∈ names pairs, (parser.readName name).getD name = name
      ∨ ((parser.readName name).getD name).utf8ByteSize < name.utf8ByteSize := by
    -- every name decodes to one that is seen as it is, hence to ASCII
    intro name hname
    obtain ⟨q, hq, rfl⟩ := List.mem_map.mp (List.mem_toFinset.mp hname)
    obtain ⟨u, hu⟩ := Option.ne_none_iff_exists'.mp (hdecodes q hq)
    have himg : (parser.readName q.1).getD q.1 ∈ names pairs := by
      rw [← himage]
      exact Finset.mem_image_of_mem _ hname
    simp only [hu, Option.getD_some] at himg ⊢
    obtain ⟨r, hr, hru⟩ := List.mem_map.mp (List.mem_toFinset.mp himg)
    have hru' : r.1 = u := hru
    exact CookieParser.readName_shortens hu (hru' ▸ hascii r hr)
  intro pair hp
  obtain ⟨t, ht⟩ := Option.ne_none_iff_exists'.mp (hdecodes pair hp)
  have hall := fixed_of_image_eq String.utf8ByteSize himage hsize pair.1 (hmem pair hp)
  simp only [ht, Option.getD_some] at hall
  rw [ht, hall]

/-- Where no name is escaped, decoding the pairs decodes the values. -/
theorem lastValue_decoded (hfixed : ∀ pair ∈ pairs, parser.readName pair.1 = some pair.1)
    (name : String) :
    Table.lastValue name (pairs.map (decoded parser))
      = (Table.lastValue name pairs).map fun value => (parser.readValue value).getD value := by
  induction pairs using List.reverseRecOn with
  | nil => rfl
  | append_singleton pairs pair ih =>
    have hpair : (decoded parser pair).1 = pair.1 := by
      rw [decoded, hfixed pair (by simp)]
      rfl
    rw [List.map_append, List.map_singleton, Table.lastValue_concat, Table.lastValue_concat, hpair,
      ih fun q hq => hfixed q (List.mem_append_left _ hq)]
    split <;> rfl

end Actix

/-! ## When the adapters agree

The condition is one of the headers and of the parser: what actix reads of the pieces, and whether
it is what is written. -/

/-- The pairs of the pieces, as they are written. -/
def cookiePairs (values : List String) : List (String × String) :=
  (cookiePieces values).filterMap (Text.splitOnce '=')

/-- Every piece is whole, and actix reads the names, and the values that count, as they are
written. -/
structure Plain (parser : Actix.CookieParser) (values : List String) : Prop where
  whole : ∀ piece ∈ cookiePieces values, piece ≠ "" → Actix.Whole parser piece
  names : ∀ pair ∈ cookiePairs values, parser.readName pair.1 = some pair.1
  values : ∀ name value, Table.lastValue name (cookiePairs values) = some value →
    parser.readValue value = some value

/-- Some piece is not whole, and none has a `=`. -/
structure Bare (parser : Actix.CookieParser) (values : List String) : Prop where
  broken : ∃ piece ∈ cookiePieces values, piece ≠ "" ∧ ¬ Actix.Whole parser piece
  pairless : ∀ piece ∈ cookiePieces values, '=' ∉ piece.toList

section Agree

variable {parser : Actix.CookieParser} {parts : HttpParts}

theorem toStr_eq_some {value : String} (h : Text.All Visible value) : toStr value = some value := by
  unfold toStr
  rw [if_pos (List.all_eq_true.mpr fun c hc => decide_eq_true (h c hc))]

/-- **axum answers with the last value written** under the name, whatever surrounds the equals sign.
-/
theorem cookie_axum (hvisible : ∀ value ∈ parts.cookieHeaders, Text.All Visible value)
    (name : String) :
    (Axum.request parts).cookie name = Table.lastValue name (cookiePairs parts.cookieHeaders) := by
  have hall : parts.cookieHeaders.filterMap toStr = parts.cookieHeaders := by
    have hid : ∀ values : List String, (∀ value ∈ values, Text.All Visible value) →
        values.filterMap toStr = values := by
      intro values
      induction values with
      | nil => exact fun _ => rfl
      | cons value values ih =>
        intro h
        rw [List.filterMap_cons_some (toStr_eq_some (h value List.mem_cons_self)),
          ih fun v hv => h v (List.mem_cons_of_mem value hv)]
    exact hid _ hvisible
  unfold Axum.request Axum.cookiesFromHeaders
  rw [HttpParts.cookie_withCookies, hall]
  rfl

/-- actix answers with the last value of the decoded pairs, where all pieces are whole. -/
theorem cookie_actix_of_whole
    (h : ∀ piece ∈ cookiePieces parts.cookieHeaders, piece ≠ "" → Actix.Whole parser piece)
    (name : String) :
    (Actix.request parser parts).cookie name
      = Table.lastValue name ((cookiePairs parts.cookieHeaders).map (Actix.decoded parser)) := by
  have hcookies : Actix.cookies parser parts.cookieHeaders
      = some ((cookiePairs parts.cookieHeaders).map (Actix.decoded parser)) :=
    Actix.mapM_of_whole h
  unfold Actix.request
  rw [hcookies]
  exact HttpParts.cookie_withCookies parts _ name

theorem cookie_actix_of_not_whole
    (h : ∃ piece ∈ cookiePieces parts.cookieHeaders, piece ≠ "" ∧ ¬ Actix.Whole parser piece)
    (name : String) : (Actix.request parser parts).cookie name = none := by
  have hcookies : Actix.cookies parser parts.cookieHeaders = none := Actix.mapM_of_not_whole h
  unfold Actix.request
  rw [hcookies]
  exact parts.cookie_builder name

theorem ascii_of_mem_cookiePairs {values : List String}
    (hvisible : ∀ value ∈ values, Text.All Visible value) :
    ∀ pair ∈ cookiePairs values, Text.All (·.toNat < 0x80) pair.1 := by
  intro pair hp
  obtain ⟨piece, hpiece, hsplit⟩ := List.mem_filterMap.mp hp
  obtain ⟨raw, hraw, rfl⟩ := List.mem_map.mp hpiece
  obtain ⟨value, hvalue, hin⟩ := List.mem_flatMap.mp hraw
  have hname := (((hvisible value hvalue).split hin).trim.splitOnce hsplit).1
  intro c hc
  rcases hname c hc with rfl | ⟨_, hlt⟩
  · decide
  · omega

/-- No pair is written exactly when no piece has a `=`. -/
theorem lastValue_eq_none_iff_pairless {values : List String} :
    (∀ name, Table.lastValue name (cookiePairs values) = none)
      ↔ ∀ piece ∈ cookiePieces values, '=' ∉ piece.toList := by
  constructor
  · intro h piece hpiece
    rw [← Text.splitOnce_eq_none_iff]
    cases hsplit : Text.splitOnce '=' piece with
    | none => rfl
    | some pair =>
      have hmem : pair ∈ cookiePairs values := List.mem_filterMap.mpr ⟨piece, hpiece, hsplit⟩
      exact absurd rfl (Table.lastValue_eq_none_iff.mp (h pair.1) pair hmem)
  · intro h name
    rw [Table.lastValue_eq_none_iff]
    intro pair hp
    obtain ⟨piece, hpiece, hsplit⟩ := List.mem_filterMap.mp hp
    rw [Text.splitOnce_eq_none_iff.mpr (h piece hpiece)] at hsplit
    exact absurd hsplit (by simp)

theorem decodes_of_whole {values : List String}
    (h : ∀ piece ∈ cookiePieces values, piece ≠ "" → Actix.Whole parser piece) :
    ∀ pair ∈ cookiePairs values, parser.readName pair.1 ≠ none ∧ parser.readValue pair.2 ≠ none := by
  intro pair hp
  obtain ⟨piece, hpiece, hsplit⟩ := List.mem_filterMap.mp hp
  have hne : piece ≠ "" := by
    intro hempty
    rw [hempty, Text.splitOnce_eq_none_iff.mpr (by simp)] at hsplit
    exact absurd hsplit (by simp)
  obtain ⟨name, value, hsplit', hname, hvalue⟩ := h piece hpiece hne
  rw [← Option.some.inj (hsplit'.symm.trans hsplit)]
  exact ⟨hname, hvalue⟩

/-- Among whole pieces, both see the same exactly where actix reads what is written. -/
theorem agree_iff_plain (hvisible : ∀ value ∈ parts.cookieHeaders, Text.All Visible value)
    (hwhole : ∀ piece ∈ cookiePieces parts.cookieHeaders, piece ≠ "" → Actix.Whole parser piece) :
    (∀ name, (Axum.request parts).cookie name = (Actix.request parser parts).cookie name)
      ↔ Plain parser parts.cookieHeaders := by
  have hdecodes := decodes_of_whole hwhole
  have hsides : ∀ name, ((Axum.request parts).cookie name = (Actix.request parser parts).cookie name
      ↔ Table.lastValue name (cookiePairs parts.cookieHeaders)
        = Table.lastValue name ((cookiePairs parts.cookieHeaders).map (Actix.decoded parser))) := by
    intro name
    rw [cookie_axum hvisible, cookie_actix_of_whole hwhole]
  constructor
  · intro h
    have hagree := fun name => (hsides name).mp (h name)
    have hnames := Actix.names_fixed (ascii_of_mem_cookiePairs hvisible)
      (fun pair hp => (hdecodes pair hp).1) fun name => by rw [hagree name]
    refine ⟨hwhole, hnames, ?_⟩
    intro name value hvalue
    obtain ⟨v, hv⟩ := Option.ne_none_iff_exists'.mp (hdecodes _ (Table.mem_of_lastValue hvalue)).2
    have hlast := hagree name
    rw [Actix.lastValue_decoded hnames, hvalue, Option.map_some] at hlast
    simp only [hv, Option.getD_some, Option.some.injEq] at hlast
    rw [hv, hlast]
  · intro h name
    rw [hsides, Actix.lastValue_decoded h.names]
    cases hvalue : Table.lastValue name (cookiePairs parts.cookieHeaders) with
    | none => rfl
    | some value =>
      rw [Option.map_some, h.values name value hvalue]
      rfl

/-- **The adapters agree on every cookie exactly when no piece is an error and actix reads what is
written, or actix reports an error and axum finds no pair either.** The parser of actix may take off
and decode what it likes, within what `CookieParser` says of it. -/
theorem cookies_agree_iff (parser : Actix.CookieParser) (parts : HttpParts)
    (hvisible : ∀ value ∈ parts.cookieHeaders, Text.All Visible value) :
    (∀ name, (Axum.request parts).cookie name = (Actix.request parser parts).cookie name)
      ↔ Plain parser parts.cookieHeaders ∨ Bare parser parts.cookieHeaders := by
  by_cases hwhole : ∀ piece ∈ cookiePieces parts.cookieHeaders, piece ≠ "" →
    Actix.Whole parser piece
  · have hbare : ¬ Bare parser parts.cookieHeaders := by
      intro h
      obtain ⟨piece, hpiece, hne, hbad⟩ := h.broken
      exact hbad (hwhole piece hpiece hne)
    rw [agree_iff_plain hvisible hwhole]
    exact (or_iff_left hbare).symm
  · have hbroken : ∃ piece ∈ cookiePieces parts.cookieHeaders, piece ≠ ""
        ∧ ¬ Actix.Whole parser piece := by
      push Not at hwhole
      exact hwhole
    have hplain : ¬ Plain parser parts.cookieHeaders := fun h => hwhole h.whole
    constructor
    · intro h
      refine .inr ⟨hbroken, lastValue_eq_none_iff_pairless.mp fun name => ?_⟩
      rw [← cookie_axum hvisible, h name]
      exact cookie_actix_of_not_whole hbroken name
    · intro h name
      have hnone := lastValue_eq_none_iff_pairless.mpr (h.resolve_left hplain).pairless name
      rw [cookie_axum hvisible, cookie_actix_of_not_whole hbroken, hnone]

/-- **Names and values without escapes, quotes and blanks are read alike**, whatever the parser: the
condition is one of the texts alone. -/
theorem Plain.of_unescaped {values : List String}
    (h : ∀ piece ∈ cookiePieces values, piece ≠ "" → ∃ name value,
      Text.splitOnce '=' piece = some (name, value) ∧ name ≠ ""
        ∧ Text.All Actix.Untouched name ∧ Text.All Actix.Untouched value) :
    Plain parser values := by
  -- an empty piece has no pair
  have hpairs : ∀ pair ∈ cookiePairs values, pair.1 ≠ "" ∧ Text.All Actix.Untouched pair.1
      ∧ Text.All Actix.Untouched pair.2 := by
    intro pair hp
    obtain ⟨piece, hpiece, hsplit⟩ := List.mem_filterMap.mp hp
    have hne : piece ≠ "" := by
      rintro rfl
      rw [Text.splitOnce_eq_none_iff.mpr (by simp)] at hsplit
      exact absurd hsplit (by simp)
    obtain ⟨name, value, hsplit', hname, hplain⟩ := h piece hpiece hne
    rw [← Option.some.inj (hsplit'.symm.trans hsplit)]
    exact ⟨hname, hplain⟩
  constructor
  case whole =>
    intro piece hpiece hne
    obtain ⟨name, value, hsplit, hname, hplain, hplain'⟩ := h piece hpiece hne
    refine ⟨name, value, hsplit, ?_, ?_⟩
    · simp [Actix.CookieParser.readName_of_untouched hplain hname]
    · simp [Actix.CookieParser.readValue_of_untouched hplain']
  case names =>
    intro pair hp
    obtain ⟨hname, hplain, _⟩ := hpairs pair hp
    exact Actix.CookieParser.readName_of_untouched hplain hname
  case values =>
    intro name value hvalue
    obtain ⟨_, _, hplain⟩ := hpairs _ (Table.mem_of_lastValue hvalue)
    exact Actix.CookieParser.readValue_of_untouched hplain

end Agree

/-! ## One piece without a value

The parser that actix ships with, and two headers, one of which has a piece without a value. -/

/-- The UTF-8 reading of Rust's standard library: anything else is an error. -/
def strictUtf8 : Utf8 where
  read bytes := String.fromUTF8? ⟨bytes.toArray⟩
  read_text s := by
    have hvalid : ByteArray.IsValidUTF8 ⟨s.toUTF8.data.toList.toArray⟩ := by
      simpa using s.isValidUTF8
    unfold String.fromUTF8?
    rw [dif_pos hvalid]
    rfl
  read_ascii bytes s h _ := by
    unfold String.fromUTF8? at h
    split at h
    next hvalid =>
      rw [← Option.some.inj h]
      rfl
    next => exact absurd h (by simp)

namespace Actix

/-- A pair of quotes around a text is taken off. -/
def trimQuotes (s : String) : String :=
  match s.toList with
  | '"' :: rest => if rest.getLast? = some '"' then String.ofList rest.dropLast else s
  | _ => s

theorem trim_of_untouched {s : String} (h : Text.All Untouched s) : Text.trim s = s := by
  have hkeep : ∀ c ∈ s.toList, Text.isWhitespace c = false := fun c hc =>
    Text.isWhitespace_of_visible (h c hc).1.1 (h c hc).1.2
  exact Text.trim_eq_self_iff.mpr
    ⟨fun c hc => hkeep c (List.mem_of_head? hc), fun c hc => hkeep c (List.mem_of_getLast? hc)⟩

theorem trimQuotes_of_untouched {s : String} (h : Text.All Untouched s) : trimQuotes s = s := by
  unfold trimQuotes
  split
  next rest hs =>
    have hquote := (h '"' (by rw [hs]; exact List.mem_cons_self)).2.1
    exact absurd rfl hquote
  next => rfl

/-- The parser actix ships with: blanks go on both sides of the `=`, and so do quotes around a value
and the blanks within them. -/
def parseEncoded : CookieParser where
  utf8 := strictUtf8
  name := Text.trim
  value s := Text.trim (trimQuotes (Text.trim s))
  name_shortens s := by
    obtain ⟨before, after, _, _, hs⟩ := Text.exists_trim s
    exact Text.eq_or_shorter hs
  name_untouched _ h := trim_of_untouched h
  value_untouched _ h := by
    rw [trim_of_untouched h, trimQuotes_of_untouched h, trim_of_untouched h]

end Actix

def requestWith (cookieHeader : String) : HttpParts where
  method := "GET"
  path := "/"
  matchedPath := none
  query := none
  headers := [("cookie", cookieHeader)]

theorem visible_requestWith {cookieHeader : String}
    (h : (cookieHeader.toList.all fun c => decide (Visible c)) = true) :
    ∀ value ∈ (requestWith cookieHeader).cookieHeaders, Text.All Visible value := by
  intro value hvalue c hc
  have hcookie : (requestWith cookieHeader).cookieHeaders = [cookieHeader] := by
    have hname : ("cookie".toLower == "cookie") = true := by decide +kernel
    simp [HttpParts.cookieHeaders, requestWith, hname]
  rw [hcookie, List.mem_singleton] at hvalue
  rw [hvalue] at hc
  exact of_decide_eq_true (List.all_eq_true.mp h c hc)

/-- **One piece without `=` and actix sees no cookie at all**, where axum sees the session. -/
theorem session_lost :
    (∀ value ∈ (requestWith "session=jwt; theme").cookieHeaders, Text.All Visible value)
      ∧ (Axum.request (requestWith "session=jwt; theme")).cookie "session" = some "jwt"
      ∧ (Actix.request Actix.parseEncoded (requestWith "session=jwt; theme")).cookie "session"
        = none := by
  refine ⟨visible_requestWith (by decide +kernel), ?_⟩
  decide +kernel

/-- An escaped value is seen decoded by actix only; quotes and blanks are seen by axum only. -/
example : (Axum.request (requestWith "a=%41; b=\"jwt\"; c = d")).cookie "a" = some "%41"
    ∧ (Axum.request (requestWith "a=%41; b=\"jwt\"; c = d")).cookie "b" = some "\"jwt\""
    ∧ (Axum.request (requestWith "a=%41; b=\"jwt\"; c = d")).cookie "c" = none := by
  decide +kernel

example : (Actix.request Actix.parseEncoded (requestWith "a=%41; b=\"jwt\"; c = d")).cookie "a"
      = some "A"
    ∧ (Actix.request Actix.parseEncoded (requestWith "a=%41; b=\"jwt\"; c = d")).cookie "b"
      = some "jwt"
    ∧ (Actix.request Actix.parseEncoded (requestWith "a=%41; b=\"jwt\"; c = d")).cookie "c"
      = some "d" := by
  decide +kernel

/-- A header without escapes, quotes and bad pieces is read alike. -/
theorem session_agreed :
    (∀ value ∈ (requestWith "session=jwt; theme=dark").cookieHeaders, Text.All Visible value)
      ∧ ∀ name, (Axum.request (requestWith "session=jwt; theme=dark")).cookie name
        = (Actix.request Actix.parseEncoded (requestWith "session=jwt; theme=dark")).cookie name := by
  have hvisible : ∀ value ∈ (requestWith "session=jwt; theme=dark").cookieHeaders,
      Text.All Visible value := visible_requestWith (by decide +kernel)
  refine ⟨hvisible, ?_⟩
  have hpieces : cookiePieces (requestWith "session=jwt; theme=dark").cookieHeaders
      = ["session=jwt", "theme=dark"] := by decide +kernel
  apply (cookies_agree_iff Actix.parseEncoded (requestWith "session=jwt; theme=dark") hvisible).mpr
  left
  apply Plain.of_unescaped
  intro piece hpiece _
  rw [hpieces] at hpiece
  simp only [List.mem_cons, List.not_mem_nil, or_false] at hpiece
  rcases hpiece with rfl | rfl
  · exact ⟨"session", "jwt", by decide +kernel⟩
  · exact ⟨"theme", "dark", by decide +kernel⟩

end AuthnKit
