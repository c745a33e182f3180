import AuthnKit.Foundation.Text

/-!
# AuthnKit — a `Set-Cookie` as a user agent reads it

The pieces of a `Set-Cookie` field value between its semicolons: the pair of the cookie, then its
attributes. Of two attributes of one name the last counts, and one that makes no sense is ignored.
A domain is taken in lower case and without a dot in front. Dates and same-site policies stay text.

* **`parse`** — the reading.
* **`Cookie.render`** — a cookie as a server writes it.
* **`parse_render`** — what is made of a cookie that was written and read.
* **`parse_render_iff`** — the cookies that are read back as they are: the canonical ones.
-/

namespace AuthnKit.SetCookieText

/-! ## White space -/

/-- A space or a tab. -/
def isWsp (c : Char) : Bool := c == ' ' || c == '\t'

def trimWsp (s : String) : String :=
  String.ofList ((s.toList.dropWhile isWsp).reverse.dropWhile isWsp).reverse

/-- A text that no semicolon ends and no white space surrounds. -/
structure Whole (s : String) : Prop where
  free : ';' ∉ s.toList
  trimmed : trimWsp s = s

instance (s : String) : Decidable (Whole s) :=
  decidable_of_iff (';' ∉ s.toList ∧ trimWsp s = s)
    ⟨fun h => ⟨h.1, h.2⟩, fun h => ⟨h.free, h.trimmed⟩⟩

theorem trimWsp_sublist (s : String) : (trimWsp s).toList.Sublist s.toList := by
  have hback := (List.dropWhile_sublist isWsp (l := (s.toList.dropWhile isWsp).reverse)).reverse
  rw [List.reverse_reverse] at hback
  unfold trimWsp
  rw [String.toList_ofList]
  exact hback.trans (List.dropWhile_sublist isWsp)

theorem mem_trimWsp {s : String} {c : Char} (h : c ∈ (trimWsp s).toList) : c ∈ s.toList :=
  (trimWsp_sublist s).subset h

/-- **Trimmed once is trimmed**: the ends of what is left are no white space. -/
theorem trimWsp_trimWsp (s : String) : trimWsp (trimWsp s) = trimWsp s := by
  let front := s.toList.dropWhile isWsp
  let kept := (front.reverse.dropWhile isWsp).reverse
  have hback : ∀ c, kept.reverse.head? = some c → isWsp c = false := by
    intro c hc
    rw [List.reverse_reverse] at hc
    have hnot := List.head?_dropWhile_not isWsp front.reverse
    rw [hc] at hnot
    simpa using hnot
  have hprefix : kept <+: front := by
    have hsuffix : front.reverse.dropWhile isWsp <:+ front.reverse := List.dropWhile_suffix _
    rw [← List.reverse_prefix, List.reverse_reverse] at hsuffix
    exact hsuffix
  have hfront : ∀ c, kept.head? = some c → isWsp c = false := by
    intro c hc
    obtain ⟨rest, hrest⟩ := hprefix
    have hnot := List.head?_dropWhile_not isWsp s.toList
    have hhead : front.head? = some c := by rw [← hrest, List.head?_append, hc]; rfl
    rw [show s.toList.dropWhile isWsp = front from rfl, hhead] at hnot
    simpa using hnot
  show String.ofList (((String.ofList kept).toList.dropWhile isWsp).reverse.dropWhile isWsp).reverse
    = String.ofList kept
  rw [String.toList_ofList, Text.dropWhile_eq_self hfront, Text.dropWhile_eq_self hback,
    List.reverse_reverse]

/-- A trimmed piece between two semicolons is whole, so it can be written as the value of an
attribute. -/
theorem whole_trimWsp {s : String} (h : ';' ∉ s.toList) : Whole (trimWsp s) :=
  ⟨fun hmem => h (mem_trimWsp hmem), trimWsp_trimWsp s⟩

theorem whole_of_forall {s : String} (h : ∀ c ∈ s.toList, c ≠ ';' ∧ isWsp c = false) : Whole s := by
  constructor
  case free => exact fun hmem => (h ';' hmem).1 rfl
  case trimmed =>
    have hfront : ∀ c, s.toList.head? = some c → isWsp c = false :=
      fun c hc => (h c (List.mem_of_head? hc)).2
    have hback : ∀ c, s.toList.reverse.head? = some c → isWsp c = false :=
      fun c hc => (h c (List.mem_reverse.mp (List.mem_of_head? hc))).2
    unfold trimWsp
    rw [Text.dropWhile_eq_self hfront, Text.dropWhile_eq_self hback, List.reverse_reverse,
      String.ofList_toList]

/-! ## Reading -/

structure Cookie where
  name : String
  value : String
  expires : Option String := none
  /-- Seconds. -/
  maxAge : Option ℕ := none
  domain : Option String := none
  path : Option String := none
  secure : Bool := false
  httpOnly : Bool := false
  sameSite : Option String := none
  deriving DecidableEq

/-- A lifetime that is not positive is over. -/
def deltaSeconds (s : String) : Option ℕ :=
  match s.toList with
  | [] => none
  | '-' :: digits => if digits.all Char.isDigit then some 0 else none
  | digits => if digits.all Char.isDigit then some (Nat.ofDigitChars 10 digits 0) else none

/-- The name of an attribute, in lower case, and its value. -/
def readAttribute (piece : String) : String × String :=
  match Text.splitOnce '=' piece with
  | some (name, value) => ((trimWsp name).toLower, trimWsp value)
  | none => ((trimWsp piece).toLower, "")

/-- A domain as it is stored: a dot in front of it does not count, nor does the case of its letters.
Of a domain with nothing in it nothing is stored. -/
def cookieDomain (s : String) : Option String :=
  let host := ((Text.stripPrefix "." s).getD s).toLower
  if host = "" then none else some host

namespace Cookie

def withAttribute (c : Cookie) (attr : String × String) : Cookie :=
  match attr.1 with
  | "expires" => { c with expires := some attr.2 }
  | "max-age" =>
    match deltaSeconds attr.2 with
    | some secs => { c with maxAge := some secs }
    | none => c
  | "domain" => if attr.2 = "" then c else { c with domain := cookieDomain attr.2 }
  | "path" => { c with path := if Text.startsWith "/" attr.2 then some attr.2 else none }
  | "secure" => { c with secure := true }
  | "httponly" => { c with httpOnly := true }
  | "samesite" => { c with sameSite := some attr.2 }
  | _ => c

end Cookie

/-- A cookie without a name is ignored. -/
def parse (s : String) : Option Cookie :=
  match Text.split ';' s with
  | [] => none
  | pair :: pieces => do
    let (name, value) ← Text.splitOnce '=' pair
    let c : Cookie := { name := trimWsp name, value := trimWsp value }
    if c.name = "" then none else some ((pieces.map readAttribute).foldl Cookie.withAttribute c)

example : parse "id=a=b ;path=/x; MAX-AGE=60;Secure; Path=y;Priority=High"
    = some { name := "id", value := "a=b", maxAge := some 60, secure := true } := by decide +kernel

example : parse "id=a;Domain=x;Domain=;domain=.Example.COM"
    = some { name := "id", value := "a", domain := some "example.com" } := by decide +kernel

/-! ## Domains

The domain is the one attribute whose value is not stored as it stands. What is stored has neither a
semicolon nor a capital letter; it may still start with a dot or a blank, where two dots or a dot and
a blank were written. -/

theorem semicolon_of_mem_toLower {s : String} (h : ';' ∈ s.toLower.toList) : ';' ∈ s.toList := by
  unfold String.toLower at h
  rw [String.toList_map, List.mem_map] at h
  obtain ⟨c, hc, hlower⟩ := h
  have hnat := congrArg Char.toNat hlower
  rw [Text.toNat_toLower] at hnat
  have hsemicolon : c.toNat = (';' : Char).toNat := by
    have : (';' : Char).toNat = 59 := rfl
    split at hnat <;> omega
  exact Char.toNat_inj.mp hsemicolon ▸ hc

theorem length_toLower (s : String) : s.toLower.toList.length = s.toList.length := by
  unfold String.toLower
  rw [String.toList_map, List.length_map]

theorem cookieDomain_eq_some {s host : String} : cookieDomain s = some host
    ↔ ((Text.stripPrefix "." s).getD s).toLower = host ∧ host ≠ "" := by
  unfold cookieDomain
  dsimp only
  constructor
  · intro h
    split at h
    next => exact absurd h (by simp)
    next hne => exact ⟨Option.some.inj h, Option.some.inj h ▸ hne⟩
  · rintro ⟨rfl, hne⟩
    exact if_neg hne

/-- What is stored for a domain has no semicolon, is not empty, and is in lower case. -/
theorem stored_of_cookieDomain {s host : String} (h : cookieDomain s = some host)
    (hfree : ';' ∉ s.toList) : ';' ∉ host.toList ∧ host ≠ "" ∧ host.toLower = host := by
  obtain ⟨rfl, hne⟩ := cookieDomain_eq_some.mp h
  refine ⟨fun hmem => hfree ?_, hne, Text.toLower_toLower _⟩
  have hmem' := semicolon_of_mem_toLower hmem
  cases hstrip : Text.stripPrefix "." s with
  | none => rwa [hstrip] at hmem'
  | some rest =>
    rw [hstrip] at hmem'
    rw [Text.stripPrefix_eq_some.mp hstrip, String.toList_append, List.mem_append]
    exact .inr hmem'

/-- A domain that is stored as it is written. -/
structure Host (host : String) : Prop where
  whole : Whole host
  ne : host ≠ ""
  dotless : Text.startsWith "." host = false
  lower : host.toLower = host

instance (host : String) : Decidable (Host host) :=
  decidable_of_iff (Whole host ∧ host ≠ "" ∧ Text.startsWith "." host = false ∧ host.toLower = host)
    ⟨fun h => ⟨h.1, h.2.1, h.2.2.1, h.2.2.2⟩, fun h => ⟨h.whole, h.ne, h.dotless, h.lower⟩⟩

/-- **No domain is stored as it is written but a host name in lower case**: whatever is taken off
makes it shorter, and nothing makes it longer again. -/
theorem cookieDomain_trimWsp_iff {host : String} (hfree : ';' ∉ host.toList) :
    cookieDomain (trimWsp host) = some host ↔ Host host := by
  rw [cookieDomain_eq_some]
  constructor
  · intro ⟨hstored, hne⟩
    have hlength := congrArg (fun s => s.toList.length) hstored
    simp only [length_toLower] at hlength
    have hle := (trimWsp_sublist host).length_le
    cases hstrip : Text.stripPrefix "." (trimWsp host) with
    | some rest =>
      rw [hstrip, Option.getD_some] at hlength
      have hlonger := congrArg (fun s => s.toList.length) (Text.stripPrefix_eq_some.mp hstrip)
      simp only [String.toList_append, List.length_append] at hlonger
      have hdot : ".".toList.length = 1 := by decide
      omega
    | none =>
      rw [hstrip, Option.getD_none] at hstored hlength
      have htrimmed : trimWsp host = host :=
        String.toList_inj.mp ((trimWsp_sublist host).eq_of_length hlength)
      rw [htrimmed] at hstored hstrip
      refine ⟨⟨hfree, htrimmed⟩, hne, ?_, hstored⟩
      unfold Text.stripPrefix at hstrip
      split at hstrip
      next => exact absurd hstrip (by simp)
      next hdot => exact Bool.eq_false_iff.mpr hdot
  · intro h
    rw [h.whole.trimmed]
    unfold Text.stripPrefix
    rw [if_neg (by simp [h.dotless]), Option.getD_none]
    exact ⟨h.lower, h.ne⟩

/-! ## What is read is well formed

A reader cuts at semicolons and trims, so what it finds are whole texts. Every attribute keeps that.
-/

namespace Cookie

structure WellFormed (c : Cookie) : Prop where
  name : Whole c.name
  name_ne : c.name ≠ ""
  name_free : '=' ∉ c.name.toList
  value : Whole c.value
  expires : ∀ date, c.expires = some date → Whole date
  domain : ∀ host, c.domain = some host → ';' ∉ host.toList ∧ host ≠ "" ∧ host.toLower = host
  path : ∀ path, c.path = some path → Whole path ∧ Text.startsWith "/" path = true
  sameSite : ∀ policy, c.sameSite = some policy → Whole policy

/-- Well formed, and with a domain that is stored as it is written. -/
structure Canonical (c : Cookie) : Prop extends c.WellFormed where
  host : ∀ host, c.domain = some host → Host host

/-- A whole attribute leaves the cookie well formed, whatever its name is. -/
theorem WellFormed.withAttribute {c : Cookie} (h : c.WellFormed) {attr : String × String}
    (hattr : Whole attr.2) : (c.withAttribute attr).WellFormed := by
  unfold Cookie.withAttribute
  split
  next => exact { h with expires := fun date hdate => Option.some.inj hdate ▸ hattr }
  next =>
    split
    next => exact { h with }
    next => exact h
  next =>
    split
    next => exact h
    next =>
      exact { h with domain := fun host hhost => stored_of_cookieDomain hhost hattr.free }
  next =>
    refine { h with path := fun path hpath => ?_ }
    dsimp only at hpath
    split at hpath
    next habsolute => exact Option.some.inj hpath ▸ ⟨hattr, habsolute⟩
    next => exact absurd hpath (by simp)
  next => exact { h with }
  next => exact { h with }
  next => exact { h with sameSite := fun policy hpolicy => Option.some.inj hpolicy ▸ hattr }
  next => exact h

end Cookie

/-- The value of a piece between two semicolons is whole. -/
theorem whole_attribute {piece : String} (h : ';' ∉ piece.toList) : Whole (readAttribute piece).2 := by
  unfold readAttribute
  split
  next name value hsplit =>
    apply whole_trimWsp
    intro hmem
    apply h
    rw [(Text.splitOnce_eq_some_iff.mp hsplit).2]
    simp [hmem]
  next => exact ⟨by simp, rfl⟩

/-- The attributes of a text, one after another, keep the cookie well formed. Induction on the
pieces. -/
theorem wellFormed_foldl {pieces : List String} (h : ∀ piece ∈ pieces, ';' ∉ piece.toList)
    {c : Cookie} (hc : c.WellFormed) :
    ((pieces.map readAttribute).foldl Cookie.withAttribute c).WellFormed := by
  induction pieces generalizing c with
  | nil => exact hc
  | cons piece pieces ih =>
    apply ih fun p hp => h p (List.mem_cons_of_mem piece hp)
    exact hc.withAttribute (whole_attribute (h piece List.mem_cons_self))

/-- **What is read is well formed**, whatever the text was. -/
theorem wellFormed_of_parse {s : String} {c : Cookie} (h : parse s = some c) : c.WellFormed := by
  have hpieces : ∀ piece ∈ Text.split ';' s, ';' ∉ piece.toList :=
    fun piece hp => Text.notMem_of_mem_split hp
  unfold parse at h
  split at h
  next => exact absurd h (by simp)
  next pair pieces hsplit =>
    rw [hsplit] at hpieces
    cases hpair : Text.splitOnce '=' pair with
    | none =>
      rw [hpair] at h
      exact absurd h (by simp)
    | some parts =>
      obtain ⟨name, value⟩ := parts
      obtain ⟨hfree, hcat⟩ := Text.splitOnce_eq_some_iff.mp hpair
      have hwhole : ';' ∉ pair.toList := hpieces pair List.mem_cons_self
      rw [hcat] at hwhole
      simp only [String.toList_append, List.mem_append, not_or] at hwhole
      rw [hpair] at h
      simp only [Option.bind_eq_bind, Option.bind_some] at h
      split at h
      next => exact absurd h (by simp)
      next hne =>
        rw [← Option.some.inj h]
        apply wellFormed_foldl fun p hp => hpieces p (List.mem_cons_of_mem pair hp)
        exact {
          name := whole_trimWsp hwhole.1.1
          name_ne := hne
          name_free := fun hmem => hfree (mem_trimWsp hmem)
          value := whole_trimWsp hwhole.2
          expires := fun date hdate => absurd hdate (by simp)
          domain := fun host hhost => absurd hhost (by simp)
          path := fun path hpath => absurd hpath (by simp)
          sameSite := fun policy hpolicy => absurd hpolicy (by simp) }

/-! ## Writing

The server writes the name and the value first, then the attributes it has something to say about,
in a fixed order. -/

def valued (name value : String) : String := name ++ "=" ++ value

namespace Cookie

def attributes (c : Cookie) : List String :=
  (c.expires.map (valued "Expires")).toList ++ (c.path.map (valued "Path")).toList
    ++ (c.domain.map (valued "Domain")).toList
    ++ (c.maxAge.map fun secs => valued "Max-Age" (toString secs)).toList
    ++ (if c.httpOnly then ["HttpOnly"] else []) ++ (if c.secure then ["Secure"] else [])
    ++ (c.sameSite.map (valued "SameSite")).toList

def render (c : Cookie) : String :=
  Text.join ';' (valued c.name c.value :: c.attributes.map (" " ++ ·))

end Cookie

/-- The names of the attributes with a value, and how they are read. -/
def labels : List (String × String) :=
  [("Expires", "expires"), ("Path", "path"), ("Domain", "domain"), ("Max-Age", "max-age"),
    ("SameSite", "samesite")]

/-- An attribute with a value, after a space, is read under its name in lower case, with its value
trimmed. -/
theorem attribute_written (label lower : String) (hlabel : (label, lower) ∈ labels)
    (value : String) : readAttribute (" " ++ valued label value) = (lower, trimWsp value) := by
  have hlabels : ∀ names ∈ labels, '=' ∉ names.1.toList
      ∧ (trimWsp (" " ++ names.1)).toLower = names.2 := by decide +kernel
  obtain ⟨hfree, hlower⟩ := hlabels _ hlabel
  have hsplit : Text.splitOnce '=' (" " ++ valued label value) = some (" " ++ label, value) := by
    rw [Text.splitOnce_eq_some_iff]
    constructor
    · rw [String.toList_append, List.mem_append, not_or]
      exact ⟨by decide, hfree⟩
    · unfold valued
      rw [← String.append_assoc, ← String.append_assoc]
      rfl
  unfold readAttribute
  rw [hsplit]
  dsimp only at hlower ⊢
  rw [hlower]

theorem isDigit_of_mem_toString {n : ℕ} {c : Char} (h : c ∈ (toString n).toList) :
    c.isDigit = true := by
  rw [Nat.toString_eq_ofList_toDigits, String.toList_ofList] at h
  exact Nat.isDigit_of_mem_toDigits (by decide) (by decide) h

theorem whole_toString (n : ℕ) : Whole (toString n) := by
  apply whole_of_forall
  intro c hc
  have hdigit := isDigit_of_mem_toString hc
  constructor
  · rintro rfl
    exact absurd hdigit (by decide)
  · unfold isWsp
    rw [Bool.or_eq_false_iff, beq_eq_false_iff_ne, beq_eq_false_iff_ne]
    constructor <;> (rintro rfl; exact absurd hdigit (by decide))

/-- **Seconds are read back** as the number that was written. -/
theorem deltaSeconds_toString (n : ℕ) : deltaSeconds (toString n) = some n := by
  have hlist : (toString n).toList = Nat.toDigits 10 n := by
    rw [Nat.toString_eq_ofList_toDigits, String.toList_ofList]
  have hdigits : ∀ c ∈ Nat.toDigits 10 n, c.isDigit = true :=
    fun c hc => Nat.isDigit_of_mem_toDigits (by decide) (by decide) hc
  unfold deltaSeconds
  rw [hlist]
  split
  next hnil => exact absurd hnil Nat.toDigits_ne_nil
  next digits hminus => exact absurd (hdigits '-' (by rw [hminus]; exact List.mem_cons_self)) (by decide)
  next =>
    rw [if_pos (List.all_eq_true.mpr hdigits), Nat.ofDigitChars_ten_toDigits]

/-! ## What is read back

Reading what was written, attribute by attribute, gives the cookie again but for its domain, of
which only what is stored can be read. -/

/-- An attribute that is there if there is something to say: where it is not, nothing is read. -/
theorem foldl_optional {α : Type} {o : Option α} {f : α → String} {c d : Cookie}
    (hnone : o = none → c = d)
    (hsome : ∀ a, o = some a → c.withAttribute (readAttribute (" " ++ f a)) = d) :
    (((o.map f).toList.map (" " ++ ·)).map readAttribute).foldl Cookie.withAttribute c = d := by
  cases o with
  | none => exact hnone rfl
  | some a => exact hsome a rfl

theorem foldl_flag {b : Bool} {label : String} {c d : Cookie} (hfalse : b = false → c = d)
    (htrue : b = true → c.withAttribute (readAttribute (" " ++ label)) = d) :
    (((if b then [label] else []).map (" " ++ ·)).map readAttribute).foldl Cookie.withAttribute c
      = d := by
  cases b with
  | false => exact hfalse rfl
  | true => exact htrue rfl

/-- A cookie that was written and read: its domain is what is stored of it. -/
def Cookie.reread (c : Cookie) : Cookie :=
  { c with domain := c.domain.bind fun host => cookieDomain (trimWsp host) }

/-- **One attribute after another is read back**, the domain as it is stored. One step for each
attribute, in the order in which they are written. -/
theorem foldl_attributes {c : Cookie} (h : c.WellFormed) :
    ((c.attributes.map (" " ++ ·)).map readAttribute).foldl Cookie.withAttribute
      { name := c.name, value := c.value } = c.reread := by
  obtain ⟨name, value, expires, maxAge, domain, path, secure, httpOnly, sameSite⟩ := c
  unfold Cookie.attributes Cookie.reread
  simp only [List.map_append, List.foldl_append]
  let stored := domain.bind fun host => cookieDomain (trimWsp host)
  -- each attribute sets its own field, in the order they are written
  rw [foldl_optional (o := expires)
      (d := ⟨name, value, expires, none, none, none, false, false, none⟩)
      (by rintro rfl; rfl) fun date hdate => ?expires,
    foldl_optional (o := path)
      (d := ⟨name, value, expires, none, none, path, false, false, none⟩)
      (by rintro rfl; rfl) fun p hp => ?path,
    foldl_optional (o := domain)
      (d := ⟨name, value, expires, none, stored, path, false, false, none⟩)
      (by rintro rfl; rfl) fun host hhost => ?domain,
    foldl_optional (o := maxAge)
      (d := ⟨name, value, expires, maxAge, stored, path, false, false, none⟩)
      (by rintro rfl; rfl) fun secs hsecs => ?maxAge,
    foldl_flag (b := httpOnly)
      (d := ⟨name, value, expires, maxAge, stored, path, false, httpOnly, none⟩)
      (by rintro rfl; rfl) fun hflag => ?httpOnly,
    foldl_flag (b := secure)
      (d := ⟨name, value, expires, maxAge, stored, path, secure, httpOnly, none⟩)
      (by rintro rfl; rfl) fun hflag => ?secure,
    foldl_optional (o := sameSite)
      (d := ⟨name, value, expires, maxAge, stored, path, secure, httpOnly, sameSite⟩)
      (by rintro rfl; rfl) fun policy hpolicy => ?sameSite]
  case expires =>
    rw [attribute_written "Expires" "expires" (by decide), (h.expires date hdate).trimmed, hdate]
    rfl
  case path =>
    obtain ⟨hwhole, habsolute⟩ := h.path p hp
    rw [attribute_written "Path" "path" (by decide), hwhole.trimmed, hp]
    show Cookie.mk _ _ _ _ _ (if _ then _ else _) _ _ _ = _
    rw [if_pos habsolute]
  case domain =>
    rw [attribute_written "Domain" "domain" (by decide)]
    have hstored : stored = cookieDomain (trimWsp host) := by
      show domain.bind _ = _
      rw [hhost, Option.bind_some]
    rw [hstored]
    show (if trimWsp host = "" then _ else _) = _
    split
    next hblank =>
      -- ignored, and nothing would be stored of it either
      have hnothing : cookieDomain "" = none := by decide +kernel
      rw [hblank, hnothing]
    next => rfl
  case maxAge =>
    rw [attribute_written "Max-Age" "max-age" (by decide), (whole_toString secs).trimmed, hsecs]
    show (match deltaSeconds (toString secs) with | some secs => _ | none => _) = _
    rw [deltaSeconds_toString]
  case httpOnly =>
    have hread : readAttribute (" " ++ "HttpOnly") = ("httponly", "") := by decide +kernel
    rw [hread, hflag]
    rfl
  case secure =>
    have hread : readAttribute (" " ++ "Secure") = ("secure", "") := by decide +kernel
    rw [hread, hflag]
    rfl
  case sameSite =>
    rw [attribute_written "SameSite" "samesite" (by decide), (h.sameSite policy hpolicy).trimmed,
      hpolicy]
    rfl

/-! ## The text

The pieces put together are the text a server sends. It is spelled out once, for comparison with
what writes such texts in another way. -/

/-- Every piece after the first follows a separator, so a joined text grows piece by piece. -/
theorem join_eq_foldr (c : Char) (piece : String) (pieces : List String) :
    Text.join c (piece :: pieces)
      = piece ++ pieces.foldr (fun next rest => String.singleton c ++ next ++ rest) "" := by
  induction pieces generalizing piece with
  | nil => simp [Text.join, List.intercalate]
  | cons next pieces ih =>
    rw [Text.join_cons (by simp), ih next, List.foldr_cons]
    simp only [String.append_assoc]

/-- An attribute that is there if there is something to say, as part of the text. -/
theorem foldr_optional {α : Type} (o : Option α) (f : α → String) (rest : String) :
    ((o.map f).toList.map (" " ++ ·)).foldr (fun next rest => String.singleton ';' ++ next ++ rest) rest
      = (o.map fun a => "; " ++ f a).getD "" ++ rest := by
  cases o with
  | none => exact String.empty_append.symm
  | some a =>
    show String.singleton ';' ++ (" " ++ f a) ++ rest = "; " ++ f a ++ rest
    rw [← String.append_assoc]
    rfl

theorem foldr_flag (b : Bool) (label rest : String) :
    ((if b then [label] else []).map (" " ++ ·)).foldr
        (fun next rest => String.singleton ';' ++ next ++ rest) rest
      = (if b then "; " ++ label else "") ++ rest := by
  cases b with
  | false => exact String.empty_append.symm
  | true =>
    show String.singleton ';' ++ (" " ++ label) ++ rest = "; " ++ label ++ rest
    rw [← String.append_assoc]
    rfl

/-- **The text of a cookie**, one attribute after another: each with a semicolon and a space in
front, and nothing where there is nothing to say. -/
theorem render_eq (c : Cookie) : c.render = valued c.name c.value
    ++ ((c.expires.map fun date => "; " ++ valued "Expires" date).getD ""
    ++ ((c.path.map fun path => "; " ++ valued "Path" path).getD ""
    ++ ((c.domain.map fun host => "; " ++ valued "Domain" host).getD ""
    ++ ((c.maxAge.map fun secs => "; " ++ valued "Max-Age" (toString secs)).getD ""
    ++ ((if c.httpOnly then "; " ++ "HttpOnly" else "")
    ++ ((if c.secure then "; " ++ "Secure" else "")
    ++ ((c.sameSite.map fun policy => "; " ++ valued "SameSite" policy).getD "" ++ ""))))))) := by
  unfold Cookie.render Cookie.attributes
  rw [join_eq_foldr]
  simp only [List.map_append, List.foldr_append, foldr_optional, foldr_flag]

/-! ## Back again

The pieces are found again in the text, since none of them has a semicolon. -/

/-- A name and a value without semicolons make a piece without one. -/
theorem free_valued {name value : String} (hname : ';' ∉ name.toList) (hvalue : ';' ∉ value.toList) :
    ';' ∉ (valued name value).toList := by
  unfold valued
  simp only [String.toList_append, List.mem_append, not_or]
  exact ⟨⟨hname, by decide⟩, hvalue⟩

/-- No attribute of a well-formed cookie has a semicolon in it. -/
theorem free_of_mem_attributes {c : Cookie} (h : c.WellFormed) {piece : String}
    (hp : piece ∈ c.attributes) : ';' ∉ piece.toList := by
  unfold Cookie.attributes at hp
  simp only [List.mem_append, Option.mem_toList, Option.map_eq_some_iff] at hp
  rcases hp with (((((⟨date, hdate, rfl⟩ | ⟨path, hpath, rfl⟩) | ⟨host, hhost, rfl⟩)
    | ⟨secs, -, rfl⟩) | hflag) | hflag) | ⟨policy, hpolicy, rfl⟩
  · exact free_valued (by decide) (h.expires date hdate).free
  · exact free_valued (by decide) (h.path path hpath).1.free
  · exact free_valued (by decide) (h.domain host hhost).1
  · exact free_valued (by decide) (whole_toString secs).free
  · split at hflag
    · rw [List.mem_singleton.mp hflag]
      decide
    · exact absurd hflag List.not_mem_nil
  · split at hflag
    · rw [List.mem_singleton.mp hflag]
      decide
    · exact absurd hflag List.not_mem_nil
  · exact free_valued (by decide) (h.sameSite policy hpolicy).free

/-- **What is made of a well-formed cookie** that was written and read: the same cookie, with its
domain as it is stored. -/
theorem parse_render {c : Cookie} (h : c.WellFormed) : parse c.render = some c.reread := by
  have hpieces : ∀ piece ∈ valued c.name c.value :: c.attributes.map (" " ++ ·),
      ';' ∉ piece.toList := by
    intro piece hp
    rcases List.mem_cons.mp hp with rfl | hp
    · exact free_valued h.name.free h.value.free
    · obtain ⟨text, htext, rfl⟩ := List.mem_map.mp hp
      rw [String.toList_append, List.mem_append, not_or]
      exact ⟨by decide, free_of_mem_attributes h htext⟩
  have hpair : Text.splitOnce '=' (valued c.name c.value) = some (c.name, c.value) :=
    Text.splitOnce_eq_some_iff.mpr ⟨h.name_free, rfl⟩
  unfold parse Cookie.render
  rw [Text.split_join_self (by simp) hpieces]
  simp only [hpair, Option.bind_eq_bind, Option.bind_some, h.name.trimmed, h.value.trimmed,
    if_neg h.name_ne, foldl_attributes h]

/-- A cookie is what is made of it exactly when its domain is a host name in lower case, or is not
given. -/
theorem reread_eq_self_iff {c : Cookie} (h : c.WellFormed) : c.reread = c ↔ c.Canonical := by
  have hsame : c.reread = c
      ↔ (c.domain.bind fun host => cookieDomain (trimWsp host)) = c.domain := by
    constructor
    · exact congrArg Cookie.domain
    · intro hdomain
      unfold Cookie.reread
      rw [hdomain]
  rw [hsame]
  constructor
  · intro hdomain
    refine { h with host := fun host hhost => ?_ }
    rw [hhost, Option.bind_some] at hdomain
    exact (cookieDomain_trimWsp_iff (h.domain host hhost).1).mp hdomain
  · intro hcanonical
    cases hdomain : c.domain with
    | none => rfl
    | some host =>
      exact (cookieDomain_trimWsp_iff (h.domain host hdomain).1).mpr (hcanonical.host host hdomain)

/-- **A cookie is read back as it is exactly when it is canonical.** A cookie that is read back is
well formed, as everything that is read is, so the condition cannot be weaker. -/
theorem parse_render_iff {c : Cookie} : parse c.render = some c ↔ c.Canonical := by
  constructor
  · intro h
    have hread := wellFormed_of_parse h
    rw [parse_render hread] at h
    exact (reread_eq_self_iff hread).mp (Option.some.inj h)
  · intro h
    rw [parse_render h.toWellFormed, (reread_eq_self_iff h.toWellFormed).mpr h]

end AuthnKit.SetCookieText
