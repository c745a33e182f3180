import Mathlib

/-!
# AuthnKit — where a reference leads

The part of the URL standard that decides an origin: a reference, as a browser resolves it on a
page with an `http` or `https` URL. Leading and trailing control characters and spaces are
dropped, tabs and newlines removed, a backslash counts as a slash, an authority ends at the first
slash, `?` or `#`, and its user information at its last `@`. How a host is validated and
normalised is a parameter.

* **`resolve`** — the origin a reference leads to.
* **`resolve_of_path`** — a single leading slash stays on the page's own origin.
* **`Site.resolve_text`** — a site leads to its own origin, whatever path, query or fragment
  follows it.
-/

namespace AuthnKit.Url

inductive Scheme where
  | http
  | https
  deriving DecidableEq

namespace Scheme

def name : Scheme → List Char
  | http => "http".toList
  | https => "https".toList

def defaultPort : Scheme → ℕ
  | http => 80
  | https => 443

def ofName (l : List Char) : Option Scheme :=
  if l = http.name then some http else if l = https.name then some https else none

end Scheme

structure Origin (H : Type) where
  scheme : Scheme
  host : H
  port : ℕ
  deriving DecidableEq

inductive Resolved (H : Type) where
  | origin (o : Origin H)
  /-- An origin of another scheme, or none. -/
  | elsewhere
  | failure
  deriving DecidableEq

/-! ## Preparing the text -/

def isC0OrSpace (c : Char) : Bool := c.toNat ≤ 0x20

def isTabOrNewline (c : Char) : Bool := c == '\t' || c == '\n' || c == '\r'

def clean (l : List Char) : List Char :=
  ((l.dropWhile isC0OrSpace).rdropWhile isC0OrSpace).filter fun c => !isTabOrNewline c

def isSlash (c : Char) : Bool := c == '/' || c == '\\'

def endsAuthority (c : Char) : Bool := isSlash c || c == '?' || c == '#'

/-! ## The parts -/

def isSchemeChar (c : Char) : Bool := c.isAlphanum || c == '+' || c == '-' || c == '.'

/-- The scheme, in lower case, and what follows its colon. -/
def scheme? (l : List Char) : Option (List Char × List Char) :=
  match l.head?, l.dropWhile isSchemeChar with
  | some c, ':' :: rest =>
    if c.isAlpha then some ((l.takeWhile isSchemeChar).map Char.toLower, rest) else none
  | _, _ => none

/-- A host, and the port after the first colon outside brackets. -/
def splitHost (inside : Bool) : List Char → List Char × Option (List Char)
  | [] => ([], none)
  | c :: rest =>
    if c = ':' && !inside then ([], some rest)
    else
      let (host, port) := splitHost (if c = '[' then true else if c = ']' then false else inside) rest
      (c :: host, port)

/-- The number of a port, unless it is not one. -/
def portNumber (scheme : Scheme) : Option (List Char) → Option ℕ
  | none | some [] => some scheme.defaultPort
  | some digits =>
    let n := digits.foldl (fun n c => n * 10 + (c.toNat - 48)) 0
    if digits.all Char.isDigit && n ≤ 65535 then some n else none

variable {H : Type}

def authority (parseHost : String → Option H) (scheme : Scheme) (l : List Char) : Resolved H :=
  let written := l.takeWhile fun c => !endsAuthority c
  -- user information ends at the last `@`
  let (host, port) := splitHost false (written.reverse.takeWhile fun c => c != '@').reverse
  if host = [] then .failure
  else match parseHost (String.ofList host), portNumber scheme port with
    | some host, some port => .origin ⟨scheme, host, port⟩
    | _, _ => .failure

/-- A reference without a scheme, on the page of `own`. -/
def relative (parseHost : String → Option H) (own : Origin H) : List Char → Resolved H
  | a :: b :: rest =>
    if isSlash a && isSlash b then authority parseHost own.scheme (rest.dropWhile isSlash)
    else .origin own
  | _ => .origin own

/-- **Where a reference leads** from a page of `own`. -/
def resolve (parseHost : String → Option H) (own : Origin H) (reference : String) : Resolved H :=
  let l := clean reference.toList
  match scheme? l with
  | none => relative parseHost own l
  | some (name, rest) => match Scheme.ofName name with
    | some scheme =>
      if scheme = own.scheme then relative parseHost own rest
      else authority parseHost scheme (rest.dropWhile isSlash)
    | none => .elsewhere

/-! ## Text without control characters -/

/-- Trimming stops where something is left: behind a part that ends with something to keep, trimming
the whole is trimming what comes after it. -/
theorem rdropWhile_append {p : Char → Bool} {a b : List Char} (hne : a ≠ [])
    (hlast : p (a.getLast hne) = false) : (a ++ b).rdropWhile p = a ++ b.rdropWhile p := by
  unfold List.rdropWhile
  rw [List.reverse_append, List.dropWhile_append]
  by_cases hb : (b.reverse.dropWhile p).isEmpty = true
  · have hkeep : a.reverse.dropWhile p = a.reverse := by
      have hhead : a.reverse = a.getLast hne :: a.dropLast.reverse := by
        conv_lhs => rw [← List.dropLast_append_getLast hne, List.reverse_concat]
      rw [hhead, List.dropWhile_cons_of_neg (by simp [hlast])]
    rw [if_pos hb, hkeep, List.reverse_reverse, List.isEmpty_iff.mp hb]
    simp
  · rw [if_neg hb, List.reverse_append, List.reverse_reverse]

/-- Only spaces at the end are dropped from a text that starts with something visible and has no
control characters in it. -/
theorem clean_eq {c : Char} {l : List Char} (hc : isC0OrSpace c = false)
    (hl : ∀ x ∈ c :: l, 0x20 ≤ x.toNat) : clean (c :: l) = (c :: l).rdropWhile isC0OrSpace := by
  unfold clean
  rw [List.dropWhile_cons_of_neg (by simp [hc])]
  apply List.filter_eq_self.mpr
  intro x hx
  have hx' : 0x20 ≤ x.toNat := hl x ((List.rdropWhile_prefix isC0OrSpace (c :: l)).subset hx)
  have htab : x ≠ '\t' ∧ x ≠ '\n' ∧ x ≠ '\r' := by
    refine ⟨?_, ?_, ?_⟩ <;> rintro rfl <;> exact absurd hx' (by decide)
  simp [isTabOrNewline, htab.1, htab.2.1, htab.2.2]

/-- **A single leading slash stays on the own origin**, whatever follows it: without control
characters, which could be dropped between two slashes, the reference is read as a path. -/
theorem resolve_of_path (parseHost : String → Option H) (own : Origin H) {reference : String}
    {rest : List Char} (hpath : reference.toList = '/' :: rest)
    (hplain : ∀ c ∈ reference.toList, 0x20 ≤ c.toNat)
    (hrest : ∀ c ∈ rest.head?, isSlash c = false) :
    resolve parseHost own reference = .origin own := by
  unfold resolve
  rw [hpath] at hplain ⊢
  have hslash : isC0OrSpace '/' = false := by decide
  have hsplit : '/' :: rest = ['/'] ++ rest := rfl
  have hclean : clean ('/' :: rest) = '/' :: rest.rdropWhile isC0OrSpace := by
    rw [clean_eq hslash hplain, hsplit, rdropWhile_append (by simp) (by simpa using hslash)]
    rfl
  rw [hclean]
  have hscheme : scheme? ('/' :: rest.rdropWhile isC0OrSpace) = none := by
    have hno : isSchemeChar '/' = false := by decide
    unfold scheme?
    rw [List.dropWhile_cons_of_neg (by simp [hno])]
    rfl
  simp only [hscheme]
  -- the second character, if there is one, is that of the reference
  cases htrim : rest.rdropWhile isC0OrSpace with
  | nil => rfl
  | cons b more =>
    have hhead : rest.head? = some b := by
      obtain ⟨tail, htail⟩ := List.rdropWhile_prefix isC0OrSpace rest
      rw [← htail, htrim]
      rfl
    have hboth : (isSlash '/' && isSlash b) = false := by rw [hrest b hhead, Bool.and_false]
    exact if_neg (by simp [hboth])

/-! ## A site

A site that is written out is the beginning of a reference. The lemmas below read it back part by
part, with an arbitrary rest behind it. -/

/-- A well-formed `scheme://host[:port]`, and the origin it stands for. -/
structure Site (parseHost : String → Option H) where
  scheme : Scheme
  /-- The scheme as it is written, in either case. -/
  written : List Char
  written_lower : written.map Char.toLower = scheme.name
  host : List Char
  host_ne : host ≠ []
  host_plain : ∀ c ∈ host, endsAuthority c = false ∧ c ≠ '@' ∧ 0x20 < c.toNat
  /-- A colon after the host ends it: there is none in it outside brackets. -/
  host_ends : splitHost false (host ++ [':']) = (host, some [])
  parsed : H
  host_parses : parseHost (String.ofList host) = some parsed
  port : Option (List Char)
  number : ℕ
  port_parses : portNumber scheme port = some number

namespace Site

variable {parseHost : String → Option H} (site : Site parseHost)

def origin : Origin H := ⟨site.scheme, site.parsed, site.number⟩

/-- The host and the port, as they are written. -/
def hostPort : List Char :=
  match site.port with
  | none => site.host
  | some digits => site.host ++ ':' :: digits

def text : List Char := site.written ++ ':' :: '/' :: '/' :: site.hostPort

/-- What ends a host ends it before anything: a colon outside brackets, or the end of the text. -/
theorem splitHost_of_ends {inside : Bool} {l : List Char}
    (h : splitHost inside (l ++ [':']) = (l, some [])) :
    splitHost inside l = (l, none) ∧ ∀ r, splitHost inside (l ++ ':' :: r) = (l, some r) := by
  induction l generalizing inside with
  | nil =>
    refine ⟨rfl, fun r => ?_⟩
    cases inside with
    | false => rfl
    | true => exact absurd h (by decide)
  | cons c l ih =>
    simp only [List.cons_append, splitHost] at h ⊢
    split at h
    next hcolon => exact absurd (congrArg (·.1) h) (by simp)
    next hcolon =>
      simp only [Prod.mk.injEq, List.cons.injEq, true_and] at h
      obtain ⟨hnone, hsome⟩ := ih (Prod.ext h.1 h.2)
      simp only [hcolon, Bool.false_eq_true, if_false, hnone]
      refine ⟨trivial, fun r => ?_⟩
      rw [hsome r]

/-- The host and the port are read back from how they are written. -/
theorem splitHost_hostPort : splitHost false site.hostPort = (site.host, site.port) := by
  obtain ⟨hnone, hsome⟩ := splitHost_of_ends site.host_ends
  unfold hostPort
  cases site.port with
  | none => exact hnone
  | some digits => exact hsome digits

theorem isDigit_of_mem_port {digits : List Char} (h : site.port = some digits) :
    ∀ c ∈ digits, c.isDigit = true := by
  have hport := site.port_parses
  rw [h] at hport
  cases digits with
  | nil => simp
  | cons d digits =>
    simp only [portNumber] at hport
    split at hport
    next hok => exact List.all_eq_true.mp (Bool.and_eq_true_iff.mp hok).1
    next => exact absurd hport (by simp)

theorem plain_of_isDigit {c : Char} (h : c.isDigit = true) :
    endsAuthority c = false ∧ c ≠ '@' ∧ 0x20 < c.toNat := by
  have hrange : 48 ≤ c.toNat ∧ c.toNat ≤ 57 := by
    simpa [Char.isDigit, UInt32.le_iff_toNat_le] using h
  have hne : ∀ d : Char, d.toNat < 48 ∨ 57 < d.toNat → c ≠ d := by
    rintro d hd rfl
    omega
  refine ⟨?_, hne '@' (by decide), by omega⟩
  simp [endsAuthority, isSlash, hne '/' (by decide), hne '\\' (by decide), hne '?' (by decide),
    hne '#' (by decide)]

/-- Nothing in a host or a port ends the authority, separates a user from it, or could be dropped.
-/
theorem hostPort_plain : ∀ c ∈ site.hostPort, endsAuthority c = false ∧ c ≠ '@' ∧ 0x20 < c.toNat := by
  intro c hc
  unfold hostPort at hc
  cases hport : site.port with
  | none =>
    rw [hport] at hc
    exact site.host_plain c hc
  | some digits =>
    rw [hport] at hc
    rcases List.mem_append.mp hc with hc | hc
    · exact site.host_plain c hc
    · rcases List.mem_cons.mp hc with rfl | hc
      · decide
      · exact plain_of_isDigit (site.isDigit_of_mem_port hport c hc)

theorem hostPort_ne : site.hostPort ≠ [] := by
  unfold hostPort
  cases site.port with
  | none => exact site.host_ne
  | some digits => simp

/-- The scheme is written in letters, in whichever case. -/
theorem isAlpha_of_mem_written : ∀ c ∈ site.written, c.isAlpha = true := by
  intro c hc
  have hlower : c.toLower ∈ site.scheme.name := by
    rw [← site.written_lower]
    exact List.mem_map_of_mem hc
  have hletters : ∀ scheme : Scheme, ∀ d ∈ scheme.name, d.isAlpha = true := by
    intro scheme
    have hall : scheme.name.all Char.isAlpha = true := by cases scheme <;> rfl
    exact List.all_eq_true.mp hall
  have halpha := hletters site.scheme _ hlower
  by_cases hupper : c.isUpper = true
  · unfold Char.isAlpha
    rw [hupper, Bool.true_or]
  · have hsame : c.toLower = c := by
      unfold Char.toLower
      split
      next hrange =>
        have hyes : c.isUpper = true := decide_eq_true hrange
        exact absurd hyes hupper
      next => rfl
    rwa [hsame] at halpha

theorem visible_of_isAlpha {c : Char} (h : c.isAlpha = true) : 0x20 < c.toNat := by
  have hrange : (65 ≤ c.toNat ∧ c.toNat ≤ 90) ∨ (97 ≤ c.toNat ∧ c.toNat ≤ 122) := by
    simpa [Char.isAlpha, Char.isUpper, Char.isLower, UInt32.le_iff_toNat_le] using h
  omega

theorem written_ne : site.written ≠ [] := by
  intro hnil
  have hlower := site.written_lower
  rw [hnil] at hlower
  cases hs : site.scheme <;> rw [hs] at hlower <;> exact absurd hlower (by decide)

/-- The scheme is read in lower case, as the scheme it is. -/
theorem ofName_written : Scheme.ofName (site.written.map Char.toLower) = some site.scheme := by
  rw [site.written_lower]
  cases site.scheme <;> decide

/-- The scheme is read back, whatever follows its colon, since letters do not end it. -/
theorem scheme?_written (rest : List Char) :
    scheme? (site.written ++ ':' :: rest) = some (site.written.map Char.toLower, rest) := by
  have hchars : ∀ c ∈ site.written, isSchemeChar c = true := by
    intro c hc
    simp [isSchemeChar, Char.isAlphanum, site.isAlpha_of_mem_written c hc]
  have hcolon : isSchemeChar ':' = false := by decide
  obtain ⟨c, more, hwritten⟩ := List.exists_cons_of_ne_nil site.written_ne
  have hdrop : (site.written ++ ':' :: rest).dropWhile isSchemeChar = ':' :: rest := by
    rw [List.dropWhile_append_of_pos hchars, List.dropWhile_cons_of_neg (by simp [hcolon])]
  have htake : (site.written ++ ':' :: rest).takeWhile isSchemeChar = site.written := by
    rw [List.takeWhile_append_of_pos hchars, List.takeWhile_cons_of_neg (by simp [hcolon]),
      List.append_nil]
  have halpha := site.isAlpha_of_mem_written c (by rw [hwritten]; exact List.mem_cons_self)
  unfold scheme?
  rw [hdrop, htake, hwritten]
  exact if_pos halpha

/-- **An authority ends where the site does**, if what follows ends an authority: its origin is the
site's. -/
theorem authority_hostPort {rest : List Char} (hrest : ∀ c ∈ rest.head?, endsAuthority c = true) :
    authority parseHost site.scheme (site.hostPort ++ rest) = .origin site.origin := by
  have hwritten : (site.hostPort ++ rest).takeWhile (fun c => !endsAuthority c) = site.hostPort := by
    have hplain : ∀ c ∈ site.hostPort, (!endsAuthority c) = true := by
      intro c hc
      rw [(site.hostPort_plain c hc).1]
      rfl
    rw [List.takeWhile_append_of_pos hplain]
    cases rest with
    | nil => simp
    | cons b rest => rw [List.takeWhile_cons_of_neg (by simp [hrest b rfl]), List.append_nil]
  -- there is no user information
  have huser : (site.hostPort.reverse.takeWhile fun c => c != '@').reverse = site.hostPort := by
    have hall : ∀ c ∈ site.hostPort.reverse, (c != '@') = true := by
      intro c hc
      simpa using (site.hostPort_plain c (List.mem_reverse.mp hc)).2.1
    rw [List.takeWhile_eq_self_iff.mpr hall, List.reverse_reverse]
  unfold authority
  simp only [hwritten, huser, site.splitHost_hostPort]
  rw [if_neg site.host_ne, site.host_parses, site.port_parses]
  rfl

/-! ### A reference that starts with the site

A reference is cleaned, read up to its scheme's colon, stripped of slashes and cut at the end of the
authority. None of these steps gets past the site. -/

/-- Nothing in the text of a site is a space or a control character. -/
theorem visible_of_mem_text {c : Char} (hc : c ∈ site.text) : 0x20 < c.toNat := by
  unfold text at hc
  simp only [List.mem_append, List.mem_cons] at hc
  rcases hc with hc | rfl | rfl | rfl | hc
  · exact visible_of_isAlpha (site.isAlpha_of_mem_written c hc)
  · decide
  · decide
  · decide
  · exact (site.hostPort_plain c hc).2.2

/-- What is dropped in front and behind leaves the site itself, and of the rest only what ends it.
-/
theorem clean_text {rest : List Char} (hplain : ∀ c ∈ rest, 0x20 ≤ c.toNat) :
    clean (site.text ++ rest) = site.text ++ rest.rdropWhile isC0OrSpace := by
  have hvisible : ∀ c ∈ site.text, isC0OrSpace c = false := by
    intro c hc
    have hlow := site.visible_of_mem_text hc
    exact decide_eq_false (by omega)
  have hne : site.text ≠ [] := by simp [text]
  obtain ⟨c, more, hcons⟩ := List.exists_cons_of_ne_nil hne
  have hc : isC0OrSpace c = false := hvisible c (by rw [hcons]; exact List.mem_cons_self)
  have hall : ∀ x ∈ c :: (more ++ rest), 0x20 ≤ x.toNat := by
    intro x hx
    rw [← List.cons_append, ← hcons] at hx
    rcases List.mem_append.mp hx with hx | hx
    · exact (site.visible_of_mem_text hx).le
    · exact hplain x hx
  have hlast : isC0OrSpace (site.text.getLast hne) = false := hvisible _ (List.getLast_mem hne)
  calc clean (site.text ++ rest)
    _ = clean (c :: (more ++ rest)) := by rw [hcons, List.cons_append]
    _ = (c :: (more ++ rest)).rdropWhile isC0OrSpace := clean_eq hc hall
    _ = (site.text ++ rest).rdropWhile isC0OrSpace := by rw [hcons, List.cons_append]
    _ = site.text ++ rest.rdropWhile isC0OrSpace := rdropWhile_append hne hlast

/-- A host does not start with a slash, so no more than the two slashes are dropped. -/
theorem dropWhile_hostPort (rest : List Char) :
    (site.hostPort ++ rest).dropWhile isSlash = site.hostPort ++ rest := by
  obtain ⟨c, more, hcons⟩ := List.exists_cons_of_ne_nil site.hostPort_ne
  have hends := (site.hostPort_plain c (by rw [hcons]; exact List.mem_cons_self)).1
  have hc : isSlash c = false := by
    unfold endsAuthority at hends
    simp only [Bool.or_eq_false_iff] at hends
    exact hends.1.1
  rw [hcons, List.cons_append, List.dropWhile_cons_of_neg (by simp [hc])]

/-- The scheme of a reference that starts with a site is the site's. -/
theorem scheme?_text (rest : List Char) : scheme? (site.text ++ rest)
    = some (site.written.map Char.toLower, '/' :: '/' :: (site.hostPort ++ rest)) := by
  rw [← site.scheme?_written]
  simp [text]

/-- **A site followed by a path, a query or a fragment leads to the site's origin**, whatever the
own origin is. What follows has to be there, or to start with something that ends an authority. -/
theorem resolve_text (own : Origin H) {reference : String} {rest : List Char}
    (htext : reference.toList = site.text ++ rest) (hplain : ∀ c ∈ rest, 0x20 ≤ c.toNat)
    (hrest : ∀ c ∈ rest.head?, endsAuthority c = true) :
    resolve parseHost own reference = .origin site.origin := by
  have hclean : clean reference.toList = site.text ++ rest.rdropWhile isC0OrSpace := by
    rw [htext, site.clean_text hplain]
  -- what is left behind the site still starts a path, a query or a fragment
  have htail : ∀ c ∈ (rest.rdropWhile isC0OrSpace).head?, endsAuthority c = true := by
    intro c hc
    apply hrest c
    obtain ⟨tail, htail⟩ := List.rdropWhile_prefix isC0OrSpace rest
    rw [← htail]
    exact List.mem_head?_append_of_mem_head? hc
  have hauthority := site.authority_hostPort htail
  have hslashes := site.dropWhile_hostPort (rest.rdropWhile isC0OrSpace)
  unfold resolve
  simp only [hclean, site.scheme?_text, site.ofName_written]
  split
  next hown =>
    -- the page's own scheme: two slashes start an authority
    have hboth : (isSlash '/' && isSlash '/') = true := by decide
    simp only [relative, hboth, if_true, hslashes]
    rw [← hown, hauthority]
  next =>
    have hboth : ('/' :: '/' :: (site.hostPort ++ rest.rdropWhile isC0OrSpace)).dropWhile isSlash
        = site.hostPort ++ rest.rdropWhile isC0OrSpace := by
      rw [List.dropWhile_cons_of_pos (by decide), List.dropWhile_cons_of_pos (by decide), hslashes]
    rw [hboth, hauthority]

end Site

end AuthnKit.Url
