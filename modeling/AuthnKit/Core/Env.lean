import AuthnKit.Foundation.Text
import AuthnKit.Foundation.Time

/-!
# AuthnKit — configuration from the environment

`src/env.rs`: an `EnvConfig` reads variables whose names begin with its prefix, and every failure
names the variable that was read. The process environment is an argument.

* **`get`**, **`require`**, **`parse`**, **`list`** — the readers.
* **`get_cases`** — what a variable can be, and what is read of it; the other readers follow it.
-/

namespace AuthnKit

/-! ## The environment -/

inductive EnvValue where
  | unicode (text : String)
  | notUnicode
  deriving DecidableEq

/-- `std::env::var`. -/
abbrev Environment := String → Option EnvValue

inductive EnvError where
  | missing (name : String)
  | notUnicode (name : String)
  | invalid (name detail : String)
  | emptyPrefix
  deriving DecidableEq

namespace EnvError

def display : EnvError → String
  | missing name => name ++ " is not set"
  | notUnicode name => name ++ " is not valid UTF-8"
  | invalid name detail => name ++ " could not be parsed: " ++ detail
  | emptyPrefix => "an environment prefix is required, so that generic names such as "
      ++ "OIDC_CLIENT_ID cannot collide with the application's own variables"

end EnvError

/-! ## Reading -/

structure EnvConfig where
  namePrefix : String
  /-- Two names meet at an underscore. -/
  ends : namePrefix.toList.getLast? = some '_'

namespace EnvConfig

def new : EnvConfig := ⟨"AUTHN_", by decide⟩

/-- Reads under a different prefix; a trailing `_` is appended when absent. -/
def withPrefix (namePrefix : String) : Except EnvError EnvConfig :=
  let trimmed := Text.trim namePrefix
  if trimmed = "" then .error .emptyPrefix
  else if h : trimmed.toList.getLast? = some '_' then .ok ⟨trimmed, h⟩
  else .ok ⟨trimmed ++ "_", by simp⟩

def name (c : EnvConfig) (suffix : String) : String := c.namePrefix ++ suffix

/-- The full name determines the suffix, as the prefix is the same for all of them. -/
theorem name_inj {c : EnvConfig} {suffix suffix' : String} (h : c.name suffix = c.name suffix') :
    suffix = suffix' := by
  unfold name at h
  simpa [← String.toList_inj] using h

variable (c : EnvConfig) (env : Environment)

/-- The raw value of a variable, if set and non-empty. -/
def get (suffix : String) : Except EnvError (Option String) :=
  match env (c.name suffix) with
  | some (.unicode value) => if Text.trim value = "" then .ok none else .ok (some value)
  | none => .ok none
  | some .notUnicode => .error (.notUnicode (c.name suffix))

/-- As `get`, failing when the variable is unset. -/
def require (suffix : String) : Except EnvError String := do
  match ← c.get env suffix with
  | some value => return value
  | none => throw (.missing (c.name suffix))

/-- A parsed value, or `none` when unset. -/
def parse {T : Type} (fromStr : String → Except String T) (suffix : String) :
    Except EnvError (Option T) := do
  match ← c.get env suffix with
  | none => return none
  | some raw => match fromStr (Text.trim raw) with
    | .ok value => return some value
    | .error detail => throw (.invalid (c.name suffix) detail)

def durationSecs (suffix : String) : Except EnvError (Option Duration) := do
  return (← c.parse env Text.parseU64 suffix).map Duration.fromSecs

/-- A list, accepting either spaces or commas as separators. -/
def list (suffix : String) : Except EnvError (Option (List String)) := do
  return (← c.get env suffix).map fun raw =>
    (((raw.toList.splitOnP fun c => c == ' ' || c == ',').map String.ofList).map Text.trim).filter
      (· ≠ "")

/-! ## What a variable is

Unset, not readable, or a value: the readers below distinguish these three, and each of them turns
the middle one into an error that names the variable. -/

/-- Not set, or set to whitespace. -/
def Unset (suffix : String) : Prop :=
  env (c.name suffix) = none
    ∨ ∃ value, env (c.name suffix) = some (.unicode value) ∧ Text.Blank value

def Garbled (suffix : String) : Prop := env (c.name suffix) = some .notUnicode

def Holds (suffix value : String) : Prop :=
  env (c.name suffix) = some (.unicode value) ∧ ¬ Text.Blank value

instance (suffix value : String) : Decidable (c.Holds env suffix value) :=
  inferInstanceAs (Decidable (_ ∧ _))

section Cases

variable {c : EnvConfig} {env : Environment} {suffix value : String}

theorem Holds.not_unset (h : c.Holds env suffix value) : ¬ c.Unset env suffix := by
  rintro (hnone | ⟨value', hsome, hblank⟩)
  · rw [h.1] at hnone
    cases hnone
  · rw [h.1] at hsome
    cases hsome
    exact h.2 hblank

theorem Holds.not_garbled (h : c.Holds env suffix value) : ¬ c.Garbled env suffix := by
  intro hgarbled
  have hvalue := h.1.symm.trans hgarbled
  cases hvalue

theorem Holds.unique {value' : String} (h : c.Holds env suffix value)
    (h' : c.Holds env suffix value') : value' = value := by
  have hvalue := h'.1.symm.trans h.1
  cases hvalue
  rfl

theorem Unset.not_garbled (h : c.Unset env suffix) : ¬ c.Garbled env suffix := by
  intro hgarbled
  rcases h with hnone | ⟨value, hsome, -⟩
  · have hvalue := hnone.symm.trans hgarbled
    cases hvalue
  · have hvalue := hsome.symm.trans hgarbled
    cases hvalue

end Cases

/-- **What a variable can be, and what is read of it.** Exactly one of three: nothing, an error that
names it, or its value, blank ones counting as unset. -/
theorem get_cases (suffix : String) :
    (c.Unset env suffix ∧ c.get env suffix = .ok none)
      ∨ (c.Garbled env suffix ∧ c.get env suffix = .error (.notUnicode (c.name suffix)))
      ∨ ∃ value, c.Holds env suffix value ∧ c.get env suffix = .ok (some value) := by
  unfold get Unset Garbled Holds
  cases henv : env (c.name suffix) with
  | none => exact .inl ⟨.inl rfl, rfl⟩
  | some read =>
    cases read with
    | notUnicode => exact .inr (.inl ⟨rfl, rfl⟩)
    | unicode value =>
      by_cases hblank : Text.Blank value
      · left
        refine ⟨.inr ⟨value, rfl, hblank⟩, ?_⟩
        simp only [if_pos (Text.trim_eq_empty_iff.mpr hblank)]
      · right; right
        refine ⟨value, ⟨rfl, hblank⟩, ?_⟩
        simp only [if_neg fun h => hblank (Text.trim_eq_empty_iff.mp h)]

/-- The same where the variable is required: being unset is an error as well. -/
theorem require_cases (suffix : String) :
    (c.Unset env suffix ∧ c.require env suffix = .error (.missing (c.name suffix)))
      ∨ (c.Garbled env suffix ∧ c.require env suffix = .error (.notUnicode (c.name suffix)))
      ∨ ∃ value, c.Holds env suffix value ∧ c.require env suffix = .ok value := by
  unfold require
  rcases c.get_cases env suffix with ⟨h, hget⟩ | ⟨h, hget⟩ | ⟨value, h, hget⟩
  · exact .inl ⟨h, by rw [hget]; rfl⟩
  · exact .inr (.inl ⟨h, by rw [hget]; rfl⟩)
  · exact .inr (.inr ⟨value, h, by rw [hget]; rfl⟩)

/-- The same where the value is parsed: a value that does not parse is an error, with the parser's
own detail. -/
theorem parse_cases {T : Type} (fromStr : String → Except String T) (suffix : String) :
    (c.Unset env suffix ∧ c.parse env fromStr suffix = .ok none)
      ∨ (c.Garbled env suffix
        ∧ c.parse env fromStr suffix = .error (.notUnicode (c.name suffix)))
      ∨ ∃ value, c.Holds env suffix value
        ∧ ((∃ parsed, fromStr (Text.trim value) = .ok parsed
            ∧ c.parse env fromStr suffix = .ok (some parsed))
          ∨ ∃ detail, fromStr (Text.trim value) = .error detail
            ∧ c.parse env fromStr suffix = .error (.invalid (c.name suffix) detail)) := by
  unfold parse
  rcases c.get_cases env suffix with ⟨h, hget⟩ | ⟨h, hget⟩ | ⟨value, h, hget⟩
  · exact .inl ⟨h, by rw [hget]; rfl⟩
  · exact .inr (.inl ⟨h, by rw [hget]; rfl⟩)
  · refine .inr (.inr ⟨value, h, ?_⟩)
    cases hparsed : fromStr (Text.trim value) with
    | ok parsed =>
      refine .inl ⟨parsed, rfl, ?_⟩
      rw [hget]
      simp only [bind, Except.bind, hparsed]
      rfl
    | error detail =>
      refine .inr ⟨detail, rfl, ?_⟩
      rw [hget]
      simp only [bind, Except.bind, hparsed]
      rfl

end EnvConfig

end AuthnKit
