import AuthnKit.Foundation.Url
import AuthnKit.Oidc.Login

/-!
# AuthnKit — accepted redirect targets stay on an allowed origin

`RedirectPolicy.validate` compares text; a browser resolves the destination as a URL. What the
comparison accepts starts with a single slash, or with the whole text of a listed site and then a
path, a query, a fragment or nothing, and both resolve where they should.

* **`validate_stays`** — an accepted destination resolves to the own origin or to a listed one,
  and holds no control character.
-/

namespace AuthnKit

open Url

variable {H : Type} {parseHost : String → Option H}

/-- A site as an operator lists it, with slashes behind. -/
def Url.Site.listed (site : Site parseHost) (slashes : ℕ) : String :=
  String.ofList (site.text ++ List.replicate slashes '/')

/-- The slashes behind a listed site are trimmed, and nothing else, since a host does not end in
one. -/
theorem Url.Site.trimEndMatches_listed (site : Site parseHost) (slashes : ℕ) :
    (Text.trimEndMatches '/' (site.listed slashes)).toList = site.text := by
  have hne : site.text ≠ [] := by simp [Site.text]
  have hlast : (site.text.getLast hne == '/') = false := by
    have hsame : site.text.getLast hne = site.hostPort.getLast site.hostPort_ne := by
      have hsplit : site.text = (site.written ++ [':', '/', '/']) ++ site.hostPort := by
        simp [Site.text]
      rw [List.getLast_congr hne (by simp) hsplit]
      exact List.getLast_append_of_ne_nil _ site.hostPort_ne
    have hplain := (site.hostPort_plain _ (List.getLast_mem site.hostPort_ne)).1
    rw [hsame, beq_eq_false_iff_ne]
    intro hslash
    rw [hslash] at hplain
    exact absurd hplain (by decide)
  have hslashes : (List.replicate slashes '/').rdropWhile (· == '/') = [] := by
    rw [List.rdropWhile_eq_nil_iff]
    intro c hc
    simp [List.eq_of_mem_replicate hc]
  unfold Text.trimEndMatches Site.listed
  rw [String.toList_ofList, String.toList_ofList]
  calc ((site.text ++ List.replicate slashes '/').reverse.dropWhile (· == '/')).reverse
    _ = (site.text ++ List.replicate slashes '/').rdropWhile (· == '/') := rfl
    _ = site.text ++ (List.replicate slashes '/').rdropWhile (· == '/') :=
        rdropWhile_append hne hlast
    _ = site.text := by rw [hslashes, List.append_nil]

/-- **Within a listed site**: its text, then a path, a query, a fragment or nothing. No longer host
name gets through. -/
theorem isWithinOrigin_listed {url : String} {site : Site parseHost} {slashes : ℕ}
    (h : isWithinOrigin url (site.listed slashes) = true) :
    ∃ rest, url.toList = site.text ++ rest ∧ ∀ c ∈ rest.head?, endsAuthority c = true := by
  unfold isWithinOrigin at h
  cases hstrip : Text.stripPrefix (Text.trimEndMatches '/' (site.listed slashes)) url with
  | none => rw [hstrip] at h; exact absurd h (by decide)
  | some rest =>
    rw [hstrip] at h
    have htext := Text.stripPrefix_eq_some.mp hstrip
    refine ⟨rest.toList, ?_, ?_⟩
    · rw [htext, String.toList_append, site.trimEndMatches_listed]
    · intro c hc
      -- the one character the check reads
      have hstarts : ∀ d : Char, Text.startsWith (String.singleton d) rest = true → c = d := by
        intro d hd
        obtain ⟨more, rfl⟩ := Text.startsWith_iff.mp hd
        have hcons : (String.singleton d ++ more).toList = d :: more.toList := by simp
        rw [hcons] at hc
        exact (Option.some.inj hc).symm
      simp only [Bool.or_eq_true] at h
      rcases h with ((hempty | hslash) | hquery) | hfragment
      · have hnone : rest = "" := by simpa using hempty
        rw [hnone] at hc
        exact absurd hc (by simp)
      · rw [hstarts '/' hslash]; decide
      · rw [hstarts '?' hquery]; decide
      · rw [hstarts '#' hfragment]; decide

namespace RedirectPolicy

/-- `site` is one of the listed origins. -/
def Lists (policy : RedirectPolicy) (site : Site parseHost) : Prop :=
  match policy with
  | relativeOnly => False
  | allowlist origins => ∃ slashes, site.listed slashes ∈ origins

/-- Every listed origin is a well-formed `scheme://host[:port]`, slashes behind it allowed. -/
def WellFormed (parseHost : String → Option H) (policy : RedirectPolicy) : Prop :=
  match policy with
  | relativeOnly => True
  | allowlist origins => ∀ origin ∈ origins, ∃ (site : Site parseHost) (slashes : ℕ),
      origin = site.listed slashes

variable {policy : RedirectPolicy} {destination : String}

/-- What an accepted destination looks like: no control characters, and a path on this origin or
something within a listed one. -/
theorem validate_eq_ok (hwf : policy.WellFormed parseHost)
    (h : policy.validate destination = .ok ()) :
    (∀ c ∈ destination.toList, Text.isControl c = false)
      ∧ ((Text.startsWith "/" destination = true ∧ Text.startsWith "//" destination = false
            ∧ Text.startsWith "/\\" destination = false)
        ∨ ∃ (site : Site parseHost) (slashes : ℕ), policy.Lists site
            ∧ isWithinOrigin destination (site.listed slashes) = true) := by
  unfold validate rejected at h
  split at h
  next => exact absurd h (by simp)
  next hcontrol =>
    have hclean : ∀ c ∈ destination.toList, Text.isControl c = false := by
      intro c hc
      by_contra hno
      exact hcontrol (List.any_eq_true.mpr ⟨c, hc, by simpa using hno⟩)
    refine ⟨hclean, ?_⟩
    split at h
    next hslash =>
      left
      split at h
      next => exact absurd h (by simp)
      next hout =>
        rw [Bool.or_eq_true, not_or, Bool.not_eq_true, Bool.not_eq_true] at hout
        exact ⟨hslash, hout.1, hout.2⟩
    next =>
      right
      cases policy with
      | relativeOnly => exact absurd h (by simp)
      | allowlist origins =>
        simp only at h
        split at h
        next hany =>
          obtain ⟨origin, hmem, hwithin⟩ := List.any_eq_true.mp hany
          obtain ⟨site, slashes, rfl⟩ := hwf origin hmem
          exact ⟨site, slashes, ⟨slashes, hmem⟩, hwithin⟩
        next => exact absurd h (by simp)

/-- **An accepted destination stays on an allowed origin.** On a page of any `http` or `https`
origin, a destination that the policy accepts resolves to that origin or to a listed one, and holds
no control character. -/
theorem validate_stays (own : Origin H) (hwf : policy.WellFormed parseHost)
    (h : policy.validate destination = .ok ()) :
    (resolve parseHost own destination = .origin own
        ∨ ∃ site : Site parseHost, policy.Lists site
            ∧ resolve parseHost own destination = .origin site.origin)
      ∧ ∀ c ∈ destination.toList, Text.isControl c = false := by
  obtain ⟨hclean, haccepted⟩ := validate_eq_ok hwf h
  have hplain : ∀ c ∈ destination.toList, 0x20 ≤ c.toNat := by
    intro c hc
    have hcontrol := hclean c hc
    unfold Text.isControl at hcontrol
    rw [Bool.or_eq_false_iff, decide_eq_false_iff_not] at hcontrol
    omega
  refine ⟨?_, hclean⟩
  rcases haccepted with ⟨hslash, htwo, hback⟩ | ⟨site, slashes, hlists, hwithin⟩
  · -- a single slash
    left
    obtain ⟨rest, rfl⟩ := Text.startsWith_iff.mp hslash
    have hcons : ("/" ++ rest).toList = '/' :: rest.toList := by simp
    refine resolve_of_path parseHost own hcons hplain ?_
    intro c hc
    obtain ⟨more, hmore⟩ := List.head?_eq_some_iff.mp hc
    have hnot : ∀ d : Char, Text.startsWith (String.ofList ['/', d]) ("/" ++ rest) = false → c ≠ d := by
      rintro d hd rfl
      have hyes : Text.startsWith (String.ofList ['/', c]) ("/" ++ rest) = true := by
        apply Text.startsWith_iff.mpr
        refine ⟨String.ofList more, ?_⟩
        rw [← String.toList_inj, hcons, hmore]
        simp
      rw [hd] at hyes
      exact absurd hyes (by decide)
    simp [isSlash, hnot '/' htwo, hnot '\\' hback]
  · -- a listed site
    right
    obtain ⟨rest, htext, hends⟩ := isWithinOrigin_listed hwithin
    have hrest : ∀ c ∈ rest, 0x20 ≤ c.toNat := by
      intro c hc
      apply hplain
      rw [htext]
      exact List.mem_append_right _ hc
    exact ⟨site, hlists, site.resolve_text own htext hrest hends⟩

/-- Hosts as they are written. -/
def plainHost (host : String) : Option String := some host

/-- `https://app.example`, on the default port. -/
def appSite : Site plainHost where
  scheme := .https
  written := "https".toList
  written_lower := by rfl
  host := "app.example".toList
  host_ne := by simp
  host_plain := by simp [endsAuthority, isSlash]
  host_ends := by rfl
  parsed := "app.example"
  host_parses := by rfl
  port := none
  number := 443
  port_parses := by rfl

/-- A page on another origin of the same application. -/
def adminOrigin : Origin String := ⟨.http, "admin.example", 8080⟩

/-- A destination on a listed origin, seen from another one. -/
theorem app_stays :
    (allowlist ["https://app.example//"]).validate "https://app.example/admin?x=1" = .ok ()
      ∧ (resolve plainHost adminOrigin "https://app.example/admin?x=1" = .origin adminOrigin
        ∨ ∃ site : Site plainHost, (allowlist ["https://app.example//"]).Lists site
            ∧ resolve plainHost adminOrigin "https://app.example/admin?x=1" = .origin site.origin) := by
  have haccepted : (allowlist ["https://app.example//"]).validate "https://app.example/admin?x=1"
      = .ok () := by decide +kernel
  have hlisted : appSite.listed 2 = "https://app.example//" := by decide +kernel
  have hwf : (allowlist ["https://app.example//"]).WellFormed plainHost := by
    intro origin horigin
    exact ⟨appSite, 2, by rw [hlisted]; exact List.mem_singleton.mp horigin⟩
  exact ⟨haccepted, (validate_stays adminOrigin hwf haccepted).1⟩

end RedirectPolicy

end AuthnKit
