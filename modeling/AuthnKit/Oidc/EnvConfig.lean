import AuthnKit.Core.Env
import AuthnKit.Oidc.Provider

/-!
# AuthnKit — the provider's configuration from the environment

`OidcConfig::new` of `src/oidc/config.rs` and `EnvConfig::oidc_config` of `src/env.rs`, which reads
six variables. Whether the OIDC library takes a text for a URL is a parameter.

* **`Faults`** — a variable at fault, and the error that says so.
* **`Attributed`** — a result that succeeds if no variable is at fault, and else names one that is.
* **`oidcConfig_attributed_iff`** — it is attributed unless the redirect URL alone is invalid: that
  one is blamed on the issuer.
-/

namespace AuthnKit

/-! ## The configuration -/

inductive OidcConfigError where
  | issuerUrl (detail : String)
  | redirectUrl (detail : String)

def OidcConfigError.display : OidcConfigError → String
  | issuerUrl detail => "invalid issuer url: " ++ detail
  | redirectUrl detail => "invalid redirect url: " ++ detail

/-- What the OIDC library says to a URL. -/
abbrev UrlCheck := String → Except String Unit

namespace OidcConfig

def new (check : UrlCheck) (issuerUrl clientId redirectUrl : String) :
    Except OidcConfigError OidcConfig := do
  (check issuerUrl).mapError .issuerUrl
  (check redirectUrl).mapError .redirectUrl
  return { issuerUrl, clientId, redirectUrl }

def withClientSecret (config : OidcConfig) (secret : String) : OidcConfig :=
  { config with clientSecret := some secret }

/-- Replaces the requested scopes wholesale. -/
def withScopes (config : OidcConfig) (scopes : List String) : OidcConfig :=
  { config with scopes := scopes }

def withMinRefreshInterval (config : OidcConfig) (interval : Duration) : OidcConfig :=
  { config with minRefreshInterval := interval }

end OidcConfig

/-- Builds an `OidcConfig` from the environment. -/
def EnvConfig.oidcConfig (check : UrlCheck) (c : EnvConfig) (env : Environment) :
    Except EnvError OidcConfig := do
  let issuerUrl ← c.require env "OIDC_ISSUER_URL"
  let clientId ← c.require env "OIDC_CLIENT_ID"
  let redirectUrl ← c.require env "OIDC_REDIRECT_URL"
  -- either URL is reported under the issuer's name
  let config ← (OidcConfig.new check issuerUrl clientId redirectUrl).mapError fun e =>
    .invalid (c.name "OIDC_ISSUER_URL") e.display
  let secret ← c.get env "OIDC_CLIENT_SECRET"
  let config := secret.elim config config.withClientSecret
  let scopes ← c.list env "OIDC_SCOPES"
  let config := scopes.elim config config.withScopes
  let interval ← c.durationSecs env "OIDC_MIN_REFRESH_SECS"
  return interval.elim config config.withMinRefreshInterval

/-! ## Faults

The specification: when a variable is at fault, and which errors say so. An error is attributed well
when it names a variable that is. -/

inductive OidcVariable where
  | issuerUrl
  | clientId
  | redirectUrl
  | clientSecret
  | scopes
  | minRefreshSecs

namespace OidcVariable

def suffix : OidcVariable → String
  | issuerUrl => "OIDC_ISSUER_URL"
  | clientId => "OIDC_CLIENT_ID"
  | redirectUrl => "OIDC_REDIRECT_URL"
  | clientSecret => "OIDC_CLIENT_SECRET"
  | scopes => "OIDC_SCOPES"
  | minRefreshSecs => "OIDC_MIN_REFRESH_SECS"

def Required : OidcVariable → Prop
  | issuerUrl | clientId | redirectUrl => True
  | clientSecret | scopes | minRefreshSecs => False

/-- The value fails the variable's own check. -/
def Rejects (check : UrlCheck) : OidcVariable → String → Prop
  | issuerUrl, value | redirectUrl, value => ∃ detail, check value = .error detail
  | minRefreshSecs, value => ∃ detail, Text.parseU64 (Text.trim value) = .error detail
  | clientId, _ | clientSecret, _ | scopes, _ => False

end OidcVariable

section Faults

variable (check : UrlCheck) (c : EnvConfig) (env : Environment)

/-- The variable is at fault, and the error says how. -/
inductive Faults : OidcVariable → EnvError → Prop where
  | missing {v} : v.Required → c.Unset env v.suffix → Faults v (.missing (c.name v.suffix))
  | notUnicode {v} : c.Garbled env v.suffix → Faults v (.notUnicode (c.name v.suffix))
  | invalid {v value} (detail : String) : c.Holds env v.suffix value → v.Rejects check value →
    Faults v (.invalid (c.name v.suffix) detail)

/-- A failure names a variable at fault, and there is none if there is no failure. -/
structure Attributed (result : Except EnvError OidcConfig) : Prop where
  named : ∀ e, result = .error e → ∃ v, Faults check c env v e
  succeeds : (∃ config, result = .ok config) ↔ ∀ v e, ¬ Faults check c env v e

def Sound (v : OidcVariable) : Prop :=
  (¬ v.Required ∧ c.Unset env v.suffix)
    ∨ ∃ value, c.Holds env v.suffix value ∧ ¬ v.Rejects check value

/-- Everything is read, the issuer's URL is valid, and the redirect URL is not. -/
def BadRedirectOnly : Prop :=
  ∃ issuer client redirect, c.Holds env "OIDC_ISSUER_URL" issuer
    ∧ c.Holds env "OIDC_CLIENT_ID" client ∧ c.Holds env "OIDC_REDIRECT_URL" redirect
    ∧ check issuer = .ok () ∧ ∃ detail, check redirect = .error detail

variable {check c env}

/-- A variable with which nothing is wrong is not at fault. -/
theorem Sound.not_faults {v : OidcVariable} (h : Sound check c env v) (e : EnvError) :
    ¬ Faults check c env v e := by
  intro hfaults
  cases hfaults with
  | missing hrequired hunset =>
    rcases h with ⟨hoptional, -⟩ | ⟨value, hholds, -⟩
    · exact hoptional hrequired
    · exact hholds.not_unset hunset
  | notUnicode hgarbled =>
    rcases h with ⟨-, hunset⟩ | ⟨value, hholds, -⟩
    · exact hunset.not_garbled hgarbled
    · exact hholds.not_garbled hgarbled
  | invalid detail hholds hrejects =>
    rcases h with ⟨-, hunset⟩ | ⟨value, hholds', haccepts⟩
    · exact hholds.not_unset hunset
    · rw [hholds'.unique hholds] at hrejects
      exact haccepts hrejects

/-- A failure that names a variable at fault is attributed well. -/
theorem attributed_error {v : OidcVariable} {e : EnvError} (h : Faults check c env v e) :
    Attributed check c env (.error e) := by
  constructor
  case named =>
    intro e' he
    obtain rfl := Except.error.inj he
    exact ⟨v, h⟩
  case succeeds =>
    constructor
    · intro ⟨config, hok⟩
      cases hok
    · intro hnone
      exact absurd h (hnone v e)

/-- So is a success, where nothing is wrong with any variable. -/
theorem attributed_ok {config : OidcConfig} (h : ∀ v, Sound check c env v) :
    Attributed check c env (.ok config) where
  named e he := by cases he
  succeeds := ⟨fun _ v e => (h v).not_faults e, fun _ => ⟨config, rfl⟩⟩

/-! ## What is read

One lemma for each reader: it names the variable it reads, if that is at fault, or gives a value. -/

variable (check c env)

/-- A required variable that is not read keeps the URLs from being checked. -/
theorem not_badRedirectOnly_of_unread {v : OidcVariable} (hrequired : v.Required)
    (hunread : ∀ value, ¬ c.Holds env v.suffix value) : ¬ BadRedirectOnly check c env := by
  rintro ⟨issuer, client, redirect, hissuer, hclient, hredirect, -⟩
  cases v with
  | issuerUrl => exact hunread issuer hissuer
  | clientId => exact hunread client hclient
  | redirectUrl => exact hunread redirect hredirect
  | clientSecret => exact hrequired
  | scopes => exact hrequired
  | minRefreshSecs => exact hrequired

/-- A required variable is at fault and named, or has a value that is read. -/
theorem require_reads (v : OidcVariable) (suffix : String) (hrequired : v.Required)
    (hsuffix : v.suffix = suffix) :
    (∃ e, Faults check c env v e ∧ ¬ BadRedirectOnly check c env
        ∧ c.require env suffix = .error e)
      ∨ ∃ value, c.Holds env suffix value ∧ c.require env suffix = .ok value := by
  subst hsuffix
  rcases c.require_cases env v.suffix with ⟨h, hread⟩ | ⟨h, hread⟩ | h
  · have hnot := not_badRedirectOnly_of_unread check c env hrequired
      fun value hvalue => hvalue.not_unset h
    exact .inl ⟨_, .missing hrequired h, hnot, hread⟩
  · have hnot := not_badRedirectOnly_of_unread check c env hrequired
      fun value hvalue => hvalue.not_garbled h
    exact .inl ⟨_, .notUnicode h, hnot, hread⟩
  · exact .inr h

/-- An optional variable is at fault and named, or nothing is wrong with it. -/
theorem get_reads (v : OidcVariable) (suffix : String) (hoptional : ¬ v.Required)
    (hsuffix : v.suffix = suffix) (haccepts : ∀ value, ¬ v.Rejects check value) :
    (∃ e, Faults check c env v e ∧ c.get env suffix = .error e)
      ∨ Sound check c env v ∧ ∃ read, c.get env suffix = .ok read := by
  subst hsuffix
  rcases c.get_cases env v.suffix with ⟨h, hread⟩ | ⟨h, hread⟩ | ⟨value, h, hread⟩
  · exact .inr ⟨.inl ⟨hoptional, h⟩, none, hread⟩
  · exact .inl ⟨_, .notUnicode h, hread⟩
  · exact .inr ⟨.inr ⟨value, h, haccepts value⟩, some value, hread⟩

/-- The same for the list of scopes. -/
theorem list_reads :
    (∃ e, Faults check c env .scopes e ∧ c.list env "OIDC_SCOPES" = .error e)
      ∨ Sound check c env .scopes ∧ ∃ read, c.list env "OIDC_SCOPES" = .ok read := by
  unfold EnvConfig.list
  rcases get_reads check c env .scopes "OIDC_SCOPES" id rfl (fun _ => id) with
    ⟨e, hfaults, hread⟩ | ⟨hsound, read, hread⟩
  · exact .inl ⟨e, hfaults, by rw [hread]; rfl⟩
  · exact .inr ⟨hsound, _, by rw [hread]; rfl⟩

/-- The same for the interval in seconds, which has to be a number. -/
theorem durationSecs_reads :
    (∃ e, Faults check c env .minRefreshSecs e
        ∧ c.durationSecs env "OIDC_MIN_REFRESH_SECS" = .error e)
      ∨ Sound check c env .minRefreshSecs
        ∧ ∃ read, c.durationSecs env "OIDC_MIN_REFRESH_SECS" = .ok read := by
  unfold EnvConfig.durationSecs
  rcases c.parse_cases env Text.parseU64 "OIDC_MIN_REFRESH_SECS" with
    ⟨h, hread⟩ | ⟨h, hread⟩ | ⟨value, h, hparsed⟩
  · exact .inr ⟨.inl ⟨id, h⟩, none, by rw [hread]; rfl⟩
  · exact .inl ⟨_, .notUnicode h, by rw [hread]; rfl⟩
  · rcases hparsed with ⟨secs, hok, hread⟩ | ⟨detail, herror, hread⟩
    · refine .inr ⟨.inr ⟨value, h, ?_⟩, some (.fromSecs secs), by rw [hread]; rfl⟩
      intro ⟨detail, herror⟩
      rw [hok] at herror
      cases herror
    · exact .inl ⟨_, .invalid detail h ⟨detail, herror⟩, by rw [hread]; rfl⟩

def EnvConfig.withOptions (c : EnvConfig) (env : Environment) (config : OidcConfig) :
    Except EnvError OidcConfig := do
  let secret ← c.get env "OIDC_CLIENT_SECRET"
  let config := secret.elim config config.withClientSecret
  let scopes ← c.list env "OIDC_SCOPES"
  let config := scopes.elim config config.withScopes
  let interval ← c.durationSecs env "OIDC_MIN_REFRESH_SECS"
  return interval.elim config config.withMinRefreshInterval

/-- None of them is required, and the first at fault is named. -/
theorem withOptions_reads (config : OidcConfig) :
    (∃ v e, Faults check c env v e ∧ c.withOptions env config = .error e)
      ∨ (Sound check c env .clientSecret ∧ Sound check c env .scopes
          ∧ Sound check c env .minRefreshSecs)
        ∧ ∃ config', c.withOptions env config = .ok config' := by
  unfold EnvConfig.withOptions
  rcases get_reads check c env .clientSecret "OIDC_CLIENT_SECRET" id rfl (fun _ => id) with
    ⟨e, hfaults, hread⟩ | ⟨hsecret, secret, hread⟩
  · exact .inl ⟨_, e, hfaults, by rw [hread]; rfl⟩
  rw [hread]
  rcases list_reads check c env with
    ⟨e, hfaults, hlist⟩ | ⟨hscopes, scopes, hlist⟩
  · exact .inl ⟨_, e, hfaults, by rw [hlist]; rfl⟩
  rw [hlist]
  rcases durationSecs_reads check c env with
    ⟨e, hfaults, hinterval⟩ | ⟨hsound, interval, hinterval⟩
  · exact .inl ⟨_, e, hfaults, by rw [hinterval]; rfl⟩
  rw [hinterval]
  exact .inr ⟨⟨hsecret, hscopes, hsound⟩, _, rfl⟩

/-! ## Attribution

The required variables are read first, then the URLs are checked together, then the options are
read. The check is where a fault can be put down to the wrong variable. -/

/-- The redirect URL is blamed on the issuer, whose URL is valid. -/
theorem not_attributed_of_badRedirectOnly {detail : String} (h : BadRedirectOnly check c env) :
    ¬ Attributed check c env (.error (.invalid (c.name "OIDC_ISSUER_URL") detail)) := by
  obtain ⟨issuer, client, redirect, hissuer, -, -, hvalid, -⟩ := h
  intro hattributed
  obtain ⟨v, hfaults⟩ := hattributed.named _ rfl
  generalize he : EnvError.invalid (c.name "OIDC_ISSUER_URL") detail = e at hfaults
  cases hfaults with
  | missing => cases he
  | notUnicode => cases he
  | invalid detail' hholds hrejects =>
    have hname := (EnvError.invalid.inj he).1
    have hv : v = .issuerUrl := by
      cases v
      case issuerUrl => rfl
      all_goals exact absurd (EnvConfig.name_inj hname) (by decide)
    subst hv
    obtain ⟨detail'', herror⟩ := hrejects
    rw [hholds.unique hissuer] at hvalid
    rw [hvalid] at herror
    cases herror

/-- The required variables are there, or the first that is not is named. -/
theorem oidcConfig_reads :
    (∃ v e, Faults check c env v e ∧ ¬ BadRedirectOnly check c env
        ∧ c.oidcConfig check env = .error e)
      ∨ ∃ issuer client redirect, c.Holds env "OIDC_ISSUER_URL" issuer
        ∧ c.Holds env "OIDC_CLIENT_ID" client ∧ c.Holds env "OIDC_REDIRECT_URL" redirect
        ∧ c.oidcConfig check env
          = ((OidcConfig.new check issuer client redirect).mapError fun e =>
              EnvError.invalid (c.name "OIDC_ISSUER_URL") e.display) >>= c.withOptions env := by
  unfold EnvConfig.oidcConfig
  rcases require_reads check c env .issuerUrl "OIDC_ISSUER_URL" trivial rfl with
    ⟨e, hfaults, hnot, hread⟩ | ⟨issuer, hissuer, hread⟩
  · exact .inl ⟨_, e, hfaults, hnot, by rw [hread]; rfl⟩
  rw [hread]
  rcases require_reads check c env .clientId "OIDC_CLIENT_ID" trivial rfl with
    ⟨e, hfaults, hnot, hread⟩ | ⟨client, hclient, hread⟩
  · exact .inl ⟨_, e, hfaults, hnot, by rw [hread]; rfl⟩
  rw [hread]
  rcases require_reads check c env .redirectUrl "OIDC_REDIRECT_URL" trivial rfl with
    ⟨e, hfaults, hnot, hread⟩ | ⟨redirect, hredirect, hread⟩
  · exact .inl ⟨_, e, hfaults, hnot, by rw [hread]; rfl⟩
  rw [hread]
  exact .inr ⟨issuer, client, redirect, hissuer, hclient, hredirect, rfl⟩

/-- Where the required variables are sound, only the others can fail, and then one at fault is
named. -/
theorem attributed_withOptions {issuer client redirect : String}
    (hissuer : c.Holds env "OIDC_ISSUER_URL" issuer) (hclient : c.Holds env "OIDC_CLIENT_ID" client)
    (hredirect : c.Holds env "OIDC_REDIRECT_URL" redirect) (hvalid : check issuer = .ok ())
    (hcheck : check redirect = .ok ()) :
    Attributed check c env (c.withOptions env
      { issuerUrl := issuer, clientId := client, redirectUrl := redirect }) := by
  have hissuer' : Sound check c env .issuerUrl := by
    refine .inr ⟨issuer, hissuer, ?_⟩
    rintro ⟨detail, h⟩
    rw [hvalid] at h
    cases h
  have hredirect' : Sound check c env .redirectUrl := by
    refine .inr ⟨redirect, hredirect, ?_⟩
    rintro ⟨detail, h⟩
    rw [hcheck] at h
    cases h
  rcases withOptions_reads check c env
      { issuerUrl := issuer, clientId := client, redirectUrl := redirect } with
    ⟨v, e, hfaults, hoptions⟩ | ⟨⟨hsecret, hscopes, hinterval⟩, config, hoptions⟩
  · rw [hoptions]
    exact attributed_error hfaults
  · rw [hoptions]
    apply attributed_ok
    intro v
    cases v with
    | issuerUrl => exact hissuer'
    | clientId => exact .inr ⟨client, hclient, id⟩
    | redirectUrl => exact hredirect'
    | clientSecret => exact hsecret
    | scopes => exact hscopes
    | minRefreshSecs => exact hinterval

/-- **A failure names a variable at fault, unless the redirect URL alone is invalid.** Case split
along the function; every other failure names the variable it was read from. -/
theorem oidcConfig_attributed_iff :
    Attributed check c env (c.oidcConfig check env) ↔ ¬ BadRedirectOnly check c env := by
  rcases oidcConfig_reads check c env with
    ⟨v, e, hfaults, hnot, hresult⟩
    | ⟨issuer, client, redirect, hissuer, hclient, hredirect, hresult⟩
  · rw [hresult]
    exact iff_of_true (attributed_error hfaults) hnot
  rw [hresult]
  unfold OidcConfig.new
  cases hvalid : check issuer with
  | error detail =>
    refine iff_of_true (attributed_error (v := .issuerUrl) (.invalid _ hissuer ⟨detail, hvalid⟩)) ?_
    rintro ⟨issuer', -, -, hissuer', -, -, hvalid', -⟩
    rw [hissuer.unique hissuer', hvalid] at hvalid'
    cases hvalid'
  | ok =>
    cases hcheck : check redirect with
    | error detail =>
      have hbad : BadRedirectOnly check c env :=
        ⟨issuer, client, redirect, hissuer, hclient, hredirect, hvalid, detail, hcheck⟩
      exact iff_of_false (not_attributed_of_badRedirectOnly check c env hbad) fun h => h hbad
    | ok =>
      have hnot : ¬ BadRedirectOnly check c env := by
        rintro ⟨-, -, redirect', -, -, hredirect', -, detail, hdetail⟩
        rw [hredirect.unique hredirect', hcheck] at hdetail
        cases hdetail
      have hattributed := attributed_withOptions check c env hissuer hclient hredirect hvalid hcheck
      exact iff_of_true hattributed hnot

end Faults

/-! ### Two deployments

The same variables with two redirect URLs, one of which is no URL. -/

/-- A check as the library makes it, for texts like those below. -/
def absoluteUrl : UrlCheck := fun url =>
  if Text.startsWith "https://" url then .ok () else .error "relative URL without a base"

/-- The required variables, with this redirect URL. -/
def deployment (redirectUrl : String) : Environment := fun name =>
  [("AUTHN_OIDC_ISSUER_URL", EnvValue.unicode "https://idp.example"),
    ("AUTHN_OIDC_CLIENT_ID", .unicode "my-client"),
    ("AUTHN_OIDC_REDIRECT_URL", .unicode redirectUrl)].lookup name

theorem deployment_attributed :
    Attributed absoluteUrl .new (deployment "https://app.example/callback")
      (EnvConfig.new.oidcConfig absoluteUrl (deployment "https://app.example/callback")) := by
  apply (oidcConfig_attributed_iff absoluteUrl .new _).mpr
  rintro ⟨-, -, redirect, -, -, hredirect, -, detail, hdetail⟩
  have henv : deployment "https://app.example/callback" "AUTHN_OIDC_REDIRECT_URL"
      = some (.unicode "https://app.example/callback") := by decide +kernel
  have hname : EnvConfig.new.name "OIDC_REDIRECT_URL" = "AUTHN_OIDC_REDIRECT_URL" := by decide
  have hvalue := hredirect.1
  rw [hname, henv] at hvalue
  obtain rfl : "https://app.example/callback" = redirect :=
    EnvValue.unicode.inj (Option.some.inj hvalue)
  have hvalid : absoluteUrl "https://app.example/callback" = .ok () := by decide +kernel
  rw [hvalid] at hdetail
  cases hdetail

/-- A redirect URL that is none is reported as the issuer's, which is one. -/
theorem deployment_misattributed :
    EnvConfig.new.oidcConfig absoluteUrl (deployment "callback")
        = .error (.invalid "AUTHN_OIDC_ISSUER_URL"
          "invalid redirect url: relative URL without a base")
      ∧ absoluteUrl "https://idp.example" = .ok ()
      ∧ ¬ Attributed absoluteUrl .new (deployment "callback")
        (EnvConfig.new.oidcConfig absoluteUrl (deployment "callback")) := by
  have hresult : EnvConfig.new.oidcConfig absoluteUrl (deployment "callback")
      = .error (.invalid (EnvConfig.new.name "OIDC_ISSUER_URL")
        "invalid redirect url: relative URL without a base") := by rfl
  have hbad : BadRedirectOnly absoluteUrl .new (deployment "callback") :=
    ⟨"https://idp.example", "my-client", "callback", by decide +kernel, by decide +kernel,
      by decide +kernel, by decide +kernel, "relative URL without a base", by decide +kernel⟩
  refine ⟨hresult, by decide +kernel, ?_⟩
  rw [hresult]
  exact not_attributed_of_badRedirectOnly absoluteUrl .new _ hbad

end AuthnKit
