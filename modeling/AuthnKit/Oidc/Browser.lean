import AuthnKit.Foundation.CookieJar
import AuthnKit.Oidc.Session

/-!
# AuthnKit — what a browser keeps of the cookies of a login

A `CookieDirective` as a browser receives it, and the cookies of `CookieSettings` under the
identity they are stored with.
-/

namespace AuthnKit

/-- A directive without a path is for the default path of the response. -/
def CookieDirective.received (defaultPath : String) (d : CookieDirective) : SetCookie where
  id := ⟨d.name, d.domain, d.path.getD defaultPath⟩
  value := d.value
  maxAge := d.maxAge.map Duration.asSecs

namespace CookieSettings

variable (c : CookieSettings)

/-- What the cookie is stored under. -/
def id : CookieId := ⟨c.name, c.domain, c.path⟩

/-- A cookie that is set is stored under the identity of its settings, whatever the response's path.
-/
theorem id_received_set (defaultPath value : String) :
    ((c.set value).received defaultPath).id = c.id := rfl

/-- A cookie that is cleared is looked for under the same identity. -/
theorem id_received_clear (defaultPath : String) : (c.clear.received defaultPath).id = c.id := rfl

/-- **Clearing removes what setting stored**: a lifetime of zero leaves nothing to store under the
identity that both directives have. -/
theorem stored_clear (now : ℕ) (defaultPath : String) :
    (c.clear.received defaultPath).stored now = none := rfl

/-- A cookie that is set is stored with its value until its lifetime is over. -/
theorem stored_set {now : ℕ} {defaultPath value : String} (h : c.maxAge.asSecs ≠ 0) :
    ((c.set value).received defaultPath).stored now
      = some ⟨value, some (now + c.maxAge.asSecs)⟩ := by
  have hlasts : ((c.set value).received defaultPath).maxAge ≠ some 0 :=
    fun hzero => h (Option.some.inj hzero)
  exact if_neg hlasts

end CookieSettings

end AuthnKit
