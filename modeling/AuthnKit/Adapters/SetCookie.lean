import AuthnKit.Adapters.CookieText
import AuthnKit.Foundation.CookieJar
import AuthnKit.Foundation.SetCookieText

/-!
# AuthnKit — a cookie directive as a user agent reads it

`impl Display` of `src/cookie.rs`, from the other end of the wire.

* **`sent`** — the cookie that a directive describes.
* **`Wire`** — the directives whose text describes that cookie.
* **`parse_display_iff`** — no other text does.
-/

namespace AuthnKit

open SetCookieText (Host Whole)

namespace CookieDirective

def sent (d : CookieDirective) : SetCookieText.Cookie where
  name := d.name
  value := d.value
  maxAge := d.displayedMaxAge
  domain := d.domain
  path := d.path
  secure := d.secure
  httpOnly := d.httpOnly
  sameSite := d.sameSite.map SameSite.display

/-- Nothing in the directive ends a part of the text before its end, and nothing in it is ignored or
stored otherwise: the domain is a host name in lower case, without a dot in front of it. -/
structure Wire (d : CookieDirective) : Prop where
  name : Whole d.name
  name_ne : d.name ≠ ""
  name_free : '=' ∉ d.name.toList
  value : Whole d.value
  domain : ∀ host, d.domain = some host → Host host
  path : ∀ path, d.path = some path → Whole path ∧ Text.startsWith "/" path = true

/-- A policy is written in a word that can stand in a cookie. -/
theorem SameSite.whole_display (s : SameSite) : Whole s.display := by
  cases s <;> decide +kernel

/-- What a directive describes can be written down exactly when the directive can. -/
theorem canonical_sent_iff {d : CookieDirective} : d.sent.Canonical ↔ d.Wire := by
  constructor
  · intro h
    exact ⟨h.name, h.name_ne, h.name_free, h.value, h.host, h.path⟩
  · intro h
    exact {
      name := h.name
      name_ne := h.name_ne
      name_free := h.name_free
      value := h.value
      expires := fun date hdate => absurd hdate (by simp [sent])
      domain := fun host hhost =>
        have hcanonical := h.domain host hhost
        ⟨hcanonical.whole.free, hcanonical.ne, hcanonical.lower⟩
      path := h.path
      sameSite := by
        intro policy hpolicy
        obtain ⟨s, -, rfl⟩ := Option.map_eq_some_iff.mp hpolicy
        exact SameSite.whole_display s
      host := h.domain }

/-! ## The text

The crate writes a directive attribute by attribute, each with its separator. That is the text a
server would write for the cookie. -/

theorem append_eq_valued (start label : String) (h : start = "; " ++ (label ++ "="))
    (value : String) : start ++ value = "; " ++ SetCookieText.valued label value := by
  unfold SetCookieText.valued
  rw [h, String.append_assoc]

/-- **The adapter writes what a server would**, for every directive. -/
theorem display_eq_render (d : CookieDirective) : d.display = d.sent.render := by
  have hpair : ∀ rest, SetCookieText.valued d.name d.value ++ rest
      = d.name ++ ("=" ++ (d.value ++ rest)) := by
    intro rest
    unfold SetCookieText.valued
    rw [String.append_assoc, String.append_assoc]
  have hhttpOnly : "; HttpOnly" = "; " ++ "HttpOnly" := by decide +kernel
  have hsecure : "; Secure" = "; " ++ "Secure" := by decide +kernel
  rw [SetCookieText.render_eq]
  unfold display attributes sent
  simp only [append_eq_valued "; Path=" "Path" (by decide +kernel),
    append_eq_valued "; Domain=" "Domain" (by decide +kernel),
    append_eq_valued "; Max-Age=" "Max-Age" (by decide +kernel),
    append_eq_valued "; SameSite=" "SameSite" (by decide +kernel), hhttpOnly, hsecure, hpair,
    Option.map_none, Option.map_map, Option.getD_none, String.append_assoc, String.append_empty,
    String.empty_append]
  rfl

/-- A directive that can be written down is read back. -/
theorem parse_display {d : CookieDirective} (h : d.Wire) :
    SetCookieText.parse d.display = some d.sent := by
  rw [display_eq_render, SetCookieText.parse_render_iff, canonical_sent_iff]
  exact h

end CookieDirective

end AuthnKit
