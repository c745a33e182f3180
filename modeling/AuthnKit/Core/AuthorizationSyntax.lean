import AuthnKit.Core.Authorization

/-!
# AuthnKit — the syntax of the Authorization header

What `Credential::from_authorization_header` reads, as texts that are written: a scheme, spaces
and a parameter, with whitespace around them. A Basic parameter is the padded base64 of
`id:secret`.

* **`fromAuthorizationHeader_written`** — the spacing and the case of the scheme do not matter.
* **`fromAuthorizationHeader_parts`** — that, and what a bearer or other credential looks like.
* **`parseBasic_eq_basic_iff`** — the payloads that are read as an id and a secret.
* **`fromAuthorizationHeader_basic`** — the same of a whole header, in both directions.
-/

namespace AuthnKit.Credential

structure Authorization where
  scheme : String
  parameter : String
  /-- The scheme ends at the first space. -/
  space_notMem : ' ' ∉ scheme.toList
  scheme_start : ∃ c, scheme.toList.head? = some c ∧ Text.isWhitespace c = false
  parameter_ne : parameter ≠ ""
  parameter_trim : Text.trim parameter = parameter

/-- The freedom a writer has: whitespace around the header, and `gap + 1` spaces in it. -/
structure Spacing where
  before : String
  gap : ℕ
  after : String
  blank_before : Text.Blank before
  blank_after : Text.Blank after

def Spacing.spaces (n : ℕ) : String := String.ofList (List.replicate n ' ')

def Spacing.canonical : Spacing where
  before := ""
  gap := 0
  after := ""
  blank_before c hc := absurd hc (by simp)
  blank_after c hc := absurd hc (by simp)

namespace Authorization

def written (a : Authorization) (w : Spacing) : String :=
  w.before ++ (a.scheme ++ " " ++ (Spacing.spaces w.gap ++ a.parameter)) ++ w.after

/-- The scheme in lower case. -/
def lowercase (a : Authorization) : Authorization where
  scheme := a.scheme.toLower
  parameter := a.parameter
  space_notMem := by
    have h := a.space_notMem
    unfold String.toLower
    rw [String.toList_map, List.mem_map]
    rintro ⟨c, hc, hspace⟩
    rw [Text.toLower_eq_space] at hspace
    exact h (hspace ▸ hc)
  scheme_start := by
    obtain ⟨c, hc, hblank⟩ := a.scheme_start
    refine ⟨c.toLower, ?_, by rw [Text.isWhitespace_toLower, hblank]⟩
    unfold String.toLower
    rw [String.toList_map, List.head?_map, hc]
    rfl
  parameter_ne := a.parameter_ne
  parameter_trim := a.parameter_trim

/-- A scheme is not empty, since it ends where the first space is and starts with none. -/
theorem scheme_ne (a : Authorization) : a.scheme ≠ "" := by
  intro hempty
  obtain ⟨c, hc, -⟩ := a.scheme_start
  rw [hempty] at hc
  exact absurd hc (by simp)

/-- Written with one space and nothing around, a header is the scheme, a space and the parameter. -/
theorem written_canonical (a : Authorization) :
    a.written .canonical = a.scheme ++ " " ++ a.parameter := by
  rw [← String.toList_inj]
  simp [written, Spacing.canonical, Spacing.spaces]

/-! ## A written header

What the parser sees of a written header after trimming it and splitting it at the first space, for
every freedom a writer has. -/

theorem blank_spaces (n : ℕ) : Text.Blank (Spacing.spaces n) := by
  intro c hc
  rw [Spacing.spaces, String.toList_ofList] at hc
  rw [List.eq_of_mem_replicate hc]
  decide

/-- A parameter is trimmed already, so the spaces in front of it are all that trimming takes away.
-/
theorem trim_parameter (a : Authorization) (n : ℕ) :
    Text.trim (Spacing.spaces n ++ a.parameter) = a.parameter := by
  have h := Text.trim_surround (s := a.parameter) (blank_spaces n) (blank_spaces 0)
  have hempty : Spacing.spaces 0 = "" := rfl
  rw [hempty, String.append_empty] at h
  rw [h, a.parameter_trim]

/-- A header starts with its scheme and ends with its parameter, so nothing else is trimmed than
what the writer put around it. -/
theorem trim_written (a : Authorization) (w : Spacing) :
    Text.trim (a.written w) = a.scheme ++ " " ++ (Spacing.spaces w.gap ++ a.parameter) := by
  unfold written
  rw [Text.trim_surround w.blank_before w.blank_after, Text.trim_eq_self_iff]
  obtain ⟨first, hfirst, hblank⟩ := a.scheme_start
  obtain ⟨-, hlast⟩ := Text.trim_eq_self_iff.mp a.parameter_trim
  have hparameter : a.parameter.toList ≠ [] :=
    fun h => a.parameter_ne (String.toList_eq_nil_iff.mp h)
  constructor
  · intro c hc
    rw [String.toList_append, String.toList_append, List.append_assoc, List.head?_append,
      hfirst] at hc
    rw [← Option.some.inj hc]
    exact hblank
  · intro c hc
    rw [String.toList_append, String.toList_append (s := Spacing.spaces _), ← List.append_assoc,
      List.getLast?_append_of_ne_nil _ hparameter] at hc
    exact hlast c hc

/-- A written header is split after its scheme, since the scheme has no space in it. -/
theorem splitOnce_written (a : Authorization) (w : Spacing) :
    Text.splitOnce ' ' (Text.trim (a.written w))
      = some (a.scheme, Spacing.spaces w.gap ++ a.parameter) := by
  rw [Text.splitOnce_eq_some_iff, trim_written]
  exact ⟨a.space_notMem, rfl⟩

end Authorization

/-! ## What is read

The credential depends on the scheme in lower case and on the trimmed parameter. Every header with a
space in it, once trimmed, is one that was written from these two. -/

/-- The credential of a scheme in lower case and its parameter. -/
def ofParts (lowercase parameter : String) : Credential :=
  if lowercase = "bearer" then bearer parameter
  else if lowercase = "basic" then parseBasic parameter
  else other lowercase parameter

/-- A header that can be split is read as its parts say. -/
theorem fromAuthorizationHeader_of_splitOnce {header scheme rest : String}
    (h : Text.splitOnce ' ' (Text.trim header) = some (scheme, rest)) :
    fromAuthorizationHeader header = ofParts scheme.toLower (Text.trim rest) := by
  unfold fromAuthorizationHeader
  rw [h]
  rfl

theorem exists_splitOnce {header : String} (h : fromAuthorizationHeader header ≠ none) :
    ∃ scheme rest, Text.splitOnce ' ' (Text.trim header) = some (scheme, rest) := by
  cases hsplit : Text.splitOnce ' ' (Text.trim header) with
  | none =>
    have hnone := fromAuthorizationHeader_eq_none_iff.mpr (Text.splitOnce_eq_none_iff.mp hsplit)
    exact absurd hnone h
  | some parts => exact ⟨parts.1, parts.2, rfl⟩

/-- **What is read are the scheme in lower case and the parameter**, however they are spaced: two
headers with the same parts are the same credential. -/
theorem fromAuthorizationHeader_written (a : Authorization) (w : Spacing) :
    fromAuthorizationHeader (a.written w) = ofParts a.scheme.toLower a.parameter := by
  rw [fromAuthorizationHeader_of_splitOnce (a.splitOnce_written w), a.trim_parameter]

/-- A header with a space in it, once trimmed, has a scheme and a parameter, and these are well
formed. -/
theorem exists_authorization {header scheme rest : String}
    (h : Text.splitOnce ' ' (Text.trim header) = some (scheme, rest)) :
    ∃ a : Authorization, a.scheme = scheme ∧ a.parameter = Text.trim rest := by
  obtain ⟨hspace, hheader⟩ := Text.splitOnce_eq_some_iff.mp h
  have htrim := Text.trim_trim header
  rw [hheader] at htrim
  obtain ⟨hfirst, -⟩ := Text.trim_eq_self_iff.mp htrim
  obtain ⟨c, hc⟩ : ∃ c, scheme.toList.head? = some c := by
    cases hc : scheme.toList.head? with
    | some c => exact ⟨c, rfl⟩
    | none =>
      -- the header would start with a space
      have hsp := hfirst ' ' (by simp [List.head?_append, hc])
      exact absurd hsp (by decide)
  have hparameter : Text.trim rest ≠ "" := by
    intro hempty
    -- the header would end in whitespace
    have hblank : Text.Blank (String.singleton ' ' ++ rest) := by
      intro x hx
      rw [String.toList_append, List.mem_append, String.toList_singleton, List.mem_singleton] at hx
      rcases hx with rfl | hx
      · decide
      · exact Text.trim_eq_empty_iff.mp hempty x hx
    rw [String.append_assoc] at htrim
    exact Text.not_blank_of_trim_append htrim (by simp) hblank
  exact ⟨{
    scheme := scheme
    parameter := Text.trim rest
    space_notMem := hspace
    scheme_start := ⟨c, hc, hfirst c (by simp [List.head?_append, hc])⟩
    parameter_ne := hparameter
    parameter_trim := Text.trim_trim rest }, rfl, rfl⟩

theorem ofParts_bearer (parameter : String) : ofParts "bearer" parameter = bearer parameter := rfl

/-- A Basic parameter is a payload to be decoded. -/
theorem ofParts_basic (parameter : String) : ofParts "basic" parameter = parseBasic parameter := rfl

/-- Any other scheme is kept, with its parameter as it stands. -/
theorem ofParts_other {lowercase parameter : String} (hbearer : lowercase ≠ "bearer")
    (hbasic : lowercase ≠ "basic") : ofParts lowercase parameter = other lowercase parameter := by
  unfold ofParts
  rw [if_neg hbearer, if_neg hbasic]

/-- What is not read as an id and a secret is malformed, with a detail that says what was wrong. -/
theorem parseBasic_basic_or_malformed (parameter : String) :
    (∃ id secret, parseBasic parameter = basic id secret)
      ∨ ∃ detail, parseBasic parameter = malformed "basic" detail := by
  unfold parseBasic
  split
  next => exact .inr ⟨_, rfl⟩
  next =>
    split
    next => exact .inr ⟨_, rfl⟩
    next =>
      split
      next => exact .inr ⟨_, rfl⟩
      next id secret _ => exact .inl ⟨id, secret, rfl⟩

/-- A bearer or another credential has the scheme and the parameter it was made of, so a token
reaches the mechanisms as it was sent. -/
theorem ofParts_carries {lowercase parameter value : String}
    (h : ofParts lowercase parameter = bearer value
      ∨ ∃ scheme, ofParts lowercase parameter = other scheme value) :
    parameter = value ∧ (ofParts lowercase parameter).scheme = some lowercase := by
  by_cases hbearer : lowercase = "bearer"
  · subst hbearer
    rw [ofParts_bearer] at h ⊢
    rcases h with h | ⟨scheme, h⟩
    · injection h with h
      exact ⟨h, rfl⟩
    · cases h
  · by_cases hbasic : lowercase = "basic"
    · subst hbasic
      rw [ofParts_basic] at h
      rcases parseBasic_basic_or_malformed parameter with ⟨id, secret, hp⟩ | ⟨detail, hp⟩
      · rw [hp] at h
        simp at h
      · rw [hp] at h
        simp at h
    · rw [ofParts_other hbearer hbasic] at h ⊢
      rcases h with h | ⟨scheme, h⟩
      · cases h
      · injection h with _ h
        exact ⟨h, rfl⟩

/-! ## The Basic payload

The id ends at the first colon, so the secret may have colons and the id may not. With the base64 in
front of it, that makes the payload readable in one way only. -/

/-- `base64(id ":" secret)`. -/
def basicPayload (id secret : String) : String :=
  Base64.encodePadded .standard (id ++ ":" ++ secret).toUTF8.data.toList

theorem padding_notMem : '=' ∉ Base64.Alphabet.standard.symbols := by decide

/-- **A payload is read as the id and the secret it was made of, and every other text as none.**
Both directions rest on base64 and UTF-8 being read in one way only. -/
theorem parseBasic_eq_basic_iff {parameter id secret : String} :
    parseBasic parameter = basic id secret
      ↔ ':' ∉ id.toList ∧ parameter = basicPayload id secret := by
  unfold basicPayload
  constructor
  · intro h
    unfold parseBasic at h
    split at h
    next => exact absurd h (by simp)
    next bytes hbytes =>
      split at h
      next => exact absurd h (by simp)
      next text htext =>
        split at h
        next => exact absurd h (by simp)
        next id' secret' hsplit =>
          obtain ⟨rfl, rfl⟩ : id' = id ∧ secret' = secret := by simpa using h
          obtain ⟨hid, rfl⟩ := Text.splitOnce_eq_some_iff.mp hsplit
          refine ⟨hid, ?_⟩
          have hutf8 := Text.fromUTF8?_eq_some_iff.mp htext
          rw [hutf8] at hbytes
          exact (Base64.encodePadded_of_decodePadded hbytes).symm
  · rintro ⟨hid, rfl⟩
    unfold parseBasic
    rw [Base64.decodePadded_encodePadded padding_notMem]
    simp only [Text.fromUTF8?_eq_some_iff.mpr rfl]
    have hsplit : Text.splitOnce ':' (id ++ ":" ++ secret) = some (id, secret) :=
      Text.splitOnce_eq_some_iff.mpr ⟨hid, rfl⟩
    rw [hsplit]

/-- A header is a Basic credential exactly when its scheme says so and its parameter is the payload
of the id and the secret. -/
theorem ofParts_eq_basic_iff {lowercase parameter id secret : String} :
    ofParts lowercase parameter = basic id secret
      ↔ lowercase = "basic" ∧ ':' ∉ id.toList ∧ parameter = basicPayload id secret := by
  rw [← parseBasic_eq_basic_iff]
  constructor
  · intro h
    unfold ofParts at h
    split at h
    next => exact absurd h (by simp)
    next =>
      split at h
      next hbasic => exact ⟨hbasic, h⟩
      next => exact absurd h (by simp)
  · rintro ⟨rfl, h⟩
    rw [ofParts_basic, h]

theorem isWhitespace_standard {c : Char} (h : c ∈ Base64.Alphabet.standard.symbols) :
    Text.isWhitespace c = false := by
  have hall : (Base64.Alphabet.standard.symbols.all fun c => !Text.isWhitespace c) = true := by
    decide +kernel
  simpa using List.all_eq_true.mp hall c h

/-- A payload is not empty: at least the colon is encoded. -/
theorem basicPayload_ne_empty (id secret : String) : basicPayload id secret ≠ "" := by
  intro hempty
  have hdecode := Base64.decodePadded_encodePadded padding_notMem
    (id ++ ":" ++ secret).toUTF8.data.toList
  have hnil : Base64.decodePadded .standard "" = some "".toUTF8.data.toList := by decide
  change Base64.decodePadded .standard (basicPayload id secret) = _ at hdecode
  rw [hempty, hnil] at hdecode
  have htext := Text.fromUTF8?_eq_some_iff.mpr (Option.some.inj hdecode)
  rw [Text.fromUTF8?_eq_some_iff.mpr rfl] at htext
  simp at htext

/-- A payload has no whitespace in it, so a header carries it as its parameter. -/
theorem isWhitespace_of_mem_basicPayload {id secret : String} {c : Char}
    (h : c ∈ (basicPayload id secret).toList) : Text.isWhitespace c = false := by
  rw [basicPayload, Base64.encodePadded, String.toList_append, List.mem_append] at h
  rcases h with h | h
  · exact isWhitespace_standard (Base64.mem_symbols_of_mem_encode h)
  · rw [Base64.padding, String.toList_ofList] at h
    rw [List.eq_of_mem_replicate h]
    decide

/-- A Basic header, the scheme in any case. -/
def Authorization.ofBasic {scheme : String} (h : scheme.toLower = "basic") (id secret : String) :
    Authorization where
  scheme := scheme
  parameter := basicPayload id secret
  space_notMem hspace := by
    have hmem : ' ' ∈ scheme.toLower.toList := by
      unfold String.toLower
      rw [String.toList_map]
      exact List.mem_map.mpr ⟨' ', hspace, rfl⟩
    rw [h] at hmem
    exact absurd hmem (by decide)
  scheme_start := by
    have hhead : (scheme.toLower.toList).head? = some 'b' := by
      rw [h]
      rfl
    unfold String.toLower at hhead
    rw [String.toList_map, List.head?_map, Option.map_eq_some_iff] at hhead
    obtain ⟨c, hc, hlower⟩ := hhead
    refine ⟨c, hc, ?_⟩
    rw [← Text.isWhitespace_toLower, hlower]
    decide
  parameter_ne := basicPayload_ne_empty id secret
  parameter_trim := by
    rw [Text.trim_eq_self_iff]
    exact ⟨fun c hc => isWhitespace_of_mem_basicPayload (List.mem_of_head? hc),
      fun c hc => isWhitespace_of_mem_basicPayload (List.mem_of_getLast? hc)⟩

theorem Spacing.spaces_succ (n : ℕ) : spaces (n + 1) = " " ++ spaces n := by
  rw [← String.toList_inj]
  simp [spaces, List.replicate_succ]

/-! ## Both directions

Writing and reading, for the schemes the crate knows and for those it passes on. -/

/-- **Basic credentials round-trip.** A header written for an id without a colon and any secret is
read as these, whatever the case of its scheme and the number of spaces; what is read as an id and a
secret was written for them; and a header with this scheme and no payload is malformed. -/
theorem fromAuthorizationHeader_basic :
    (∀ scheme id secret gap, scheme.toLower = "basic" → ':' ∉ id.toList →
      fromAuthorizationHeader (scheme ++ Spacing.spaces (gap + 1) ++ basicPayload id secret)
        = basic id secret)
    ∧ ∀ header,
      (∀ id secret, fromAuthorizationHeader header = basic id secret → ':' ∉ id.toList
        ∧ ∃ scheme rest, Text.splitOnce ' ' (Text.trim header) = some (scheme, rest)
          ∧ Text.trim rest = basicPayload id secret)
      ∧ ∀ scheme rest, Text.splitOnce ' ' (Text.trim header) = some (scheme, rest) →
        scheme.toLower = "basic" →
        (¬ ∃ id secret, ':' ∉ id.toList ∧ Text.trim rest = basicPayload id secret) →
        ∃ detail, fromAuthorizationHeader header = malformed "basic" detail := by
  refine ⟨?_, fun header => ⟨?_, ?_⟩⟩
  case refine_1 =>
    intro scheme id secret gap hscheme hid
    have hread := fromAuthorizationHeader_written (.ofBasic hscheme id secret)
      { Spacing.canonical with gap := gap }
    have hheader : (Authorization.ofBasic hscheme id secret).written
        { Spacing.canonical with gap := gap }
          = scheme ++ Spacing.spaces (gap + 1) ++ basicPayload id secret := by
      rw [← String.toList_inj, Spacing.spaces_succ]
      simp [Authorization.written, Authorization.ofBasic, Spacing.canonical]
    rw [hheader] at hread
    rw [hread]
    exact ofParts_eq_basic_iff.mpr ⟨hscheme, hid, rfl⟩
  case refine_2 =>
    intro id secret h
    have hsome : fromAuthorizationHeader header ≠ none := by
      rw [h]
      exact fun h => nomatch h
    obtain ⟨scheme, rest, hsplit⟩ := exists_splitOnce hsome
    rw [fromAuthorizationHeader_of_splitOnce hsplit] at h
    obtain ⟨-, hid, hpayload⟩ := ofParts_eq_basic_iff.mp h
    exact ⟨hid, scheme, rest, hsplit, hpayload⟩
  case refine_3 =>
    intro scheme rest hsplit hscheme hnone
    rw [fromAuthorizationHeader_of_splitOnce hsplit, hscheme, ofParts_basic]
    rcases parseBasic_basic_or_malformed (Text.trim rest) with ⟨id, secret, h⟩ | h
    · exact absurd ⟨id, secret, parseBasic_eq_basic_iff.mp h⟩ hnone
    · exact h

/-- A header is read, and one that is no payload is malformed. -/
theorem fromAuthorizationHeader_idSecret :
    fromAuthorizationHeader ("BaSiC" ++ Spacing.spaces 3 ++ basicPayload "id" "s:1")
        = basic "id" "s:1"
      ∧ Text.trim "aWQ6cw==" = basicPayload "id" "s"
      ∧ ∃ detail, fromAuthorizationHeader " basic !" = malformed "basic" detail := by
  have hread : fromAuthorizationHeader "Basic aWQ6cw==" = basic "id" "s" := by decide +kernel
  have hsplit : Text.splitOnce ' ' (Text.trim "Basic aWQ6cw==") = some ("Basic", "aWQ6cw==") := by
    decide +kernel
  refine ⟨fromAuthorizationHeader_basic.1 "BaSiC" "id" "s:1" 2 (by decide +kernel) (by decide),
    ?_, ?_⟩
  · obtain ⟨-, scheme, rest, hparts, hpayload⟩ :=
      (fromAuthorizationHeader_basic.2 "Basic aWQ6cw==").1 "id" "s" hread
    rw [hsplit] at hparts
    obtain ⟨-, rfl⟩ : "Basic" = scheme ∧ "aWQ6cw==" = rest := by simpa using hparts
    exact hpayload
  · apply (fromAuthorizationHeader_basic.2 " basic !").2 "basic" "!" (by decide +kernel)
      (by decide +kernel)
    rintro ⟨id, secret, hid, hpayload⟩
    have hbang : parseBasic (Text.trim "!") = malformed "basic" "not valid base64" := by
      decide +kernel
    rw [parseBasic_eq_basic_iff.mpr ⟨hid, hpayload⟩] at hbang
    exact absurd hbang (by simp)

/-- **Only the scheme, in lower case, and the parameter count**; and a bearer or another credential
has both. The second half starts from an arbitrary header, and finds the parts it was read from. -/
theorem fromAuthorizationHeader_parts :
    (∀ (a : Authorization) (w : Spacing),
      fromAuthorizationHeader (a.written w)
          = fromAuthorizationHeader (a.scheme.toLower ++ " " ++ a.parameter)
        ∧ (a.scheme.toLower ≠ "basic" →
          fromAuthorizationHeader (a.written w) = bearer a.parameter
            ∨ ∃ scheme, fromAuthorizationHeader (a.written w) = other scheme a.parameter))
    ∧ ∀ header,
      (fromAuthorizationHeader header = none ↔ ' ' ∉ (Text.trim header).toList)
      ∧ ∀ value, (fromAuthorizationHeader header = bearer value
          ∨ ∃ scheme, fromAuthorizationHeader header = other scheme value) →
        value ≠ "" ∧ Text.trim value = value
          ∧ ∃ scheme, (fromAuthorizationHeader header).scheme = some scheme
            ∧ scheme ≠ "" ∧ scheme.toLower = scheme ∧ ' ' ∉ scheme.toList := by
  refine ⟨fun a w => ⟨?_, ?_⟩, fun header => ⟨fromAuthorizationHeader_eq_none_iff, ?_⟩⟩
  case refine_1 =>
    have hlower := fromAuthorizationHeader_written a.lowercase .canonical
    rw [Authorization.written_canonical] at hlower
    have hscheme : a.lowercase.scheme.toLower = a.scheme.toLower := Text.toLower_toLower a.scheme
    rw [hscheme] at hlower
    rw [fromAuthorizationHeader_written]
    exact hlower.symm
  case refine_2 =>
    intro hbasic
    rw [fromAuthorizationHeader_written]
    by_cases hbearer : a.scheme.toLower = "bearer"
    · left
      rw [hbearer, ofParts_bearer]
    · right
      exact ⟨a.scheme.toLower, ofParts_other hbearer hbasic⟩
  case refine_3 =>
    intro value hvalue
    have hsome : fromAuthorizationHeader header ≠ none := by
      rcases hvalue with h | ⟨scheme, h⟩
      · rw [h]
        exact fun h => nomatch h
      · rw [h]
        exact fun h => nomatch h
    obtain ⟨scheme, rest, hsplit⟩ := exists_splitOnce hsome
    obtain ⟨a, rfl, hparameter⟩ := exists_authorization hsplit
    rw [fromAuthorizationHeader_of_splitOnce hsplit, ← hparameter] at hvalue ⊢
    obtain ⟨rfl, hscheme⟩ := ofParts_carries hvalue
    refine ⟨a.parameter_ne, a.parameter_trim, a.scheme.toLower, hscheme, ?_,
      Text.toLower_toLower a.scheme, a.lowercase.space_notMem⟩
    exact a.lowercase.scheme_ne

/-- A token with a space in it. -/
def Authorization.spacedToken : Authorization where
  scheme := "BEARER"
  parameter := "a b"
  space_notMem := by decide
  scheme_start := ⟨'B', by decide, by decide⟩
  parameter_ne := by decide
  parameter_trim := by decide +kernel

/-- A token with a space in it is read as it stands. -/
theorem fromAuthorizationHeader_spacedToken :
    (fromAuthorizationHeader (Authorization.spacedToken.written .canonical) = bearer "a b"
        ∨ ∃ scheme, fromAuthorizationHeader (Authorization.spacedToken.written .canonical)
          = other scheme "a b")
      ∧ "a b" ≠ "" ∧ Text.trim "a b" = "a b" := by
  have hbearer := (fromAuthorizationHeader_parts.1 .spacedToken .canonical).2 (by decide +kernel)
  obtain ⟨hne, htrim, -⟩ := (fromAuthorizationHeader_parts.2 _).2 "a b" hbearer
  exact ⟨hbearer, hne, htrim⟩

end AuthnKit.Credential
