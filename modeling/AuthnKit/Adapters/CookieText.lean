import AuthnKit.Core.Error
import AuthnKit.Foundation.Text

/-!
# AuthnKit — a cookie directive on the wire

How the two adapters render a `CookieDirective`: `impl Display` of `src/cookie.rs`, which axum
sends as it is, and the conversion of `src/adapters/actix.rs` into actix's own cookie type.

* **`display`** — the `Set-Cookie` text.
* **`Actix.cookie`** — the conversion.
* **`sameLifetime_iff`** — the lifetimes that mean the same in both.
-/

namespace AuthnKit

/-! ## Display -/

def SameSite.display : SameSite → String
  | strict => "Strict"
  | lax => "Lax"
  | none => "None"

namespace CookieDirective

/-- The seconds that `Max-Age` shows. -/
def displayedMaxAge (d : CookieDirective) : Option ℕ := d.maxAge.map Duration.asSecs

def attributes (d : CookieDirective) : String :=
  let path := (d.path.map ("; Path=" ++ ·)).getD ""
  let domain := (d.domain.map ("; Domain=" ++ ·)).getD ""
  let maxAge := (d.displayedMaxAge.map fun secs => "; Max-Age=" ++ toString secs).getD ""
  let httpOnly := if d.httpOnly then "; HttpOnly" else ""
  let secure := if d.secure then "; Secure" else ""
  let sameSite := (d.sameSite.map ("; SameSite=" ++ ·.display)).getD ""
  path ++ domain ++ maxAge ++ httpOnly ++ secure ++ sameSite

/-- `impl Display for CookieDirective`: the `Set-Cookie` field value. -/
def display (d : CookieDirective) : String := d.name ++ "=" ++ d.value ++ d.attributes

example : (((set "session" "jwt").withPath "/").withMaxAge (.fromSecs 60)).display
    = "session=jwt; Path=/; Max-Age=60; HttpOnly; Secure; SameSite=Lax" := by decide +kernel

end CookieDirective

/-! ## actix -/

/-- The duration of actix's cookies: a signed 64-bit number of seconds, and nanoseconds. -/
structure CookieDuration where
  seconds : ℤ
  nanoseconds : ℕ
  le_seconds : -2 ^ 63 ≤ seconds
  seconds_lt : seconds < 2 ^ 63
  nanoseconds_lt : nanoseconds < 1000000000

namespace CookieDuration

def zero : CookieDuration := ⟨0, 0, by decide, by decide, by decide⟩

/-- `CookieDuration::try_from`: a duration of more seconds is refused. -/
def tryFrom (d : Duration) : Option CookieDuration :=
  if h : d.asSecs < 2 ^ 63 then
    some ⟨d.asSecs, d.nanos % 1000000000, by omega, by omega, Nat.mod_lt _ (by decide)⟩
  else none

def wholeSeconds (d : CookieDuration) : ℤ := d.seconds

end CookieDuration

namespace Actix

structure Cookie where
  name : String
  value : String
  httpOnly : Bool
  secure : Bool
  path : Option String := none
  domain : Option String := none
  maxAge : Option CookieDuration := none
  sameSite : Option SameSite := none

/-- The seconds that `Max-Age` shows. -/
def Cookie.displayedMaxAge (c : Cookie) : Option ℤ := c.maxAge.map CookieDuration.wholeSeconds

/-- `impl From<&CookieDirective> for Cookie<'static>`. -/
def fromDirective (d : CookieDirective) : Cookie where
  name := d.name
  value := d.value
  httpOnly := d.httpOnly
  secure := d.secure
  path := d.path
  domain := d.domain
  -- a lifetime that does not fit is none at all
  maxAge := d.maxAge.map fun maxAge => (CookieDuration.tryFrom maxAge).getD .zero
  sameSite := d.sameSite

end Actix

/-! ## Lifetimes

Both adapters show a lifetime in whole seconds. actix goes through a signed type on the way, and
drops what does not fit it. -/

theorem wholeSeconds_tryFrom {d : Duration} (h : d.asSecs < 2 ^ 63) :
    ((CookieDuration.tryFrom d).getD .zero).wholeSeconds = d.asSecs := by
  unfold CookieDuration.tryFrom
  rw [dif_pos h]
  rfl

theorem wholeSeconds_tryFrom_of_le {d : Duration} (h : 2 ^ 63 ≤ d.asSecs) :
    ((CookieDuration.tryFrom d).getD .zero).wholeSeconds = 0 := by
  unfold CookieDuration.tryFrom
  rw [dif_neg (by omega)]
  rfl

theorem CookieDirective.displayedMaxAge_of_some {d : CookieDirective} {maxAge : Duration}
    (h : d.maxAge = some maxAge) : d.displayedMaxAge = some maxAge.asSecs := by
  rw [displayedMaxAge, h, Option.map_some]

/-- What actix shows of a lifetime are the seconds of the converted one. -/
theorem Actix.displayedMaxAge_of_some {d : CookieDirective} {maxAge : Duration}
    (h : d.maxAge = some maxAge) : (fromDirective d).displayedMaxAge
      = some ((CookieDuration.tryFrom maxAge).getD .zero).wholeSeconds := by
  rw [Cookie.displayedMaxAge, fromDirective, h, Option.map_some, Option.map_some]

/-- The two renderings agree, and neither deletes a cookie that is to be kept. -/
structure SameLifetime (d : CookieDirective) : Prop where
  same : d.displayedMaxAge.map Int.ofNat = (Actix.fromDirective d).displayedMaxAge
  kept : ∀ maxAge, d.maxAge = some maxAge → maxAge ≠ .zero →
    d.displayedMaxAge ≠ some 0 ∧ (Actix.fromDirective d).displayedMaxAge ≠ some 0

/-- **A lifetime means the same in both adapters** if it is zero, or a second at least and no more
seconds than a signed number holds. Otherwise it is a deletion in one of them, or in both. -/
theorem sameLifetime_iff (d : CookieDirective) :
    SameLifetime d ↔ ∀ maxAge, d.maxAge = some maxAge →
      maxAge = .zero ∨ 1 ≤ maxAge.asSecs ∧ maxAge.asSecs < 2 ^ 63 := by
  constructor
  · intro h maxAge hmax
    by_cases hzero : maxAge = .zero
    · exact .inl hzero
    · right
      obtain ⟨hdisplay, hactix⟩ := h.kept maxAge hmax hzero
      constructor
      · have hne : maxAge.asSecs ≠ 0 := by
          intro hsecs
          apply hdisplay
          rw [CookieDirective.displayedMaxAge_of_some hmax, hsecs]
        omega
      · by_contra hlarge
        apply hactix
        rw [Actix.displayedMaxAge_of_some hmax, wholeSeconds_tryFrom_of_le (by omega)]
  · intro h
    cases hmax : d.maxAge with
    | none =>
      constructor
      case same =>
        simp [CookieDirective.displayedMaxAge, Actix.Cookie.displayedMaxAge, Actix.fromDirective,
          hmax]
      case kept => exact fun maxAge hsome => absurd (hmax.symm.trans hsome) (by simp)
    | some maxAge =>
      have hfits : maxAge.asSecs < 2 ^ 63 := by
        rcases h maxAge hmax with rfl | ⟨-, hlt⟩
        · decide
        · exact hlt
      have hdisplay := CookieDirective.displayedMaxAge_of_some hmax
      have hactix : (Actix.fromDirective d).displayedMaxAge = some (maxAge.asSecs : ℤ) := by
        rw [Actix.displayedMaxAge_of_some hmax, wholeSeconds_tryFrom hfits]
      constructor
      case same =>
        rw [hdisplay, hactix]
        rfl
      case kept =>
        intro maxAge' hmax' hne
        obtain rfl : maxAge = maxAge' := Option.some.inj (hmax.symm.trans hmax')
        have hsecs : maxAge.asSecs ≠ 0 := by
          rcases h maxAge hmax with hzero | ⟨hle, -⟩
          · exact absurd hzero hne
          · omega
        rw [hdisplay, hactix]
        simpa using hsecs

/-- A day is a day in both. -/
theorem sameLifetime_day :
    SameLifetime ((CookieDirective.set "session" "jwt").withMaxAge (.fromSecs 86400)) := by
  apply (sameLifetime_iff _).mpr
  intro maxAge hmax
  obtain rfl : Duration.fromSecs 86400 = maxAge := Option.some.inj hmax
  exact .inr (by decide +kernel)

/-- Half a second deletes the cookie in both, and a lifetime beyond the signed range in actix. -/
theorem lifetimes_differ :
    (((CookieDirective.set "session" "jwt").withMaxAge ⟨500000000, by decide⟩).displayedMaxAge
        = some 0
      ∧ ¬ SameLifetime ((CookieDirective.set "session" "jwt").withMaxAge ⟨500000000, by decide⟩))
    ∧ ((CookieDirective.set "session" "jwt").withMaxAge (.fromSecs (2 ^ 63))).displayedMaxAge
        = some (2 ^ 63)
      ∧ (Actix.fromDirective ((CookieDirective.set "session" "jwt").withMaxAge
          (.fromSecs (2 ^ 63)))).displayedMaxAge = some 0 := by
  have hhalf : ((CookieDirective.set "session" "jwt").withMaxAge
      ⟨500000000, by decide⟩).displayedMaxAge = some 0 := by decide
  refine ⟨⟨hhalf, fun h => ?_⟩, by decide +kernel, by decide +kernel⟩
  exact (h.kept ⟨500000000, by decide⟩ rfl (by decide)).1 hhalf

end AuthnKit
