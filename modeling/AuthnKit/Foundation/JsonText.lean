import Mathlib

/-!
# AuthnKit — JSON strings

How a string is written in JSON and read again: between quotes, with what may not stand there
escaped. A reader of JSON takes more than what is written here; what is read here is only that.

* **`quote`** — a string in quotes.
* **`readString`** — the characters up to the closing quote.
* **`readQuoted_quote`** — what was written is read again, whatever follows it.
-/

namespace AuthnKit.JsonText

/-- The letters that stand for a character after a backslash. -/
def shortEscapes : List (Char × Char) :=
  [('"', '"'), ('\\', '\\'), ('b', '\x08'), ('t', '\t'), ('n', '\n'), ('f', '\x0c'), ('r', '\r')]

def escapeChar (c : Char) : List Char :=
  match shortEscapes.find? (·.2 == c) with
  | some (letter, _) => ['\\', letter]
  | none =>
    if c.toNat < 0x20 then
      ['\\', 'u', '0', '0', Nat.digitChar (c.toNat / 16), Nat.digitChar (c.toNat % 16)]
    else [c]

def quote (s : String) : List Char := '"' :: s.toList.flatMap escapeChar ++ ['"']

def hexValue (c : Char) : Option ℕ := (List.range 16).find? (Nat.digitChar · == c)

/-- The characters up to the closing quote, and what follows it. -/
def readString : List Char → Option (List Char × List Char)
  | [] => none
  | '"' :: rest => some ([], rest)
  | '\\' :: 'u' :: '0' :: '0' :: high :: low :: rest =>
    match hexValue high, hexValue low with
    | some high, some low =>
      (readString rest).map fun read => (Char.ofNat (high * 16 + low) :: read.1, read.2)
    | _, _ => none
  | '\\' :: letter :: rest =>
    match shortEscapes.lookup letter with
    | some c => (readString rest).map fun read => (c :: read.1, read.2)
    | none => none
  | c :: rest => (readString rest).map fun read => (c :: read.1, read.2)

/-- A string in quotes. -/
def readQuoted : List Char → Option (String × List Char)
  | '"' :: rest => (readString rest).map fun read => (String.ofList read.1, read.2)
  | _ => none

/-- `text`, and what follows it. -/
def expect (text : String) (l : List Char) : Option (List Char) :=
  if text.toList.isPrefixOf l then some (l.drop text.toList.length) else none

/-! ## Reading what was written

A writer escapes what it must, a reader undoes any escape. Each lemma reads one written piece in
front of an arbitrary rest, so that pieces can be read one after the other. -/

theorem hexValue_digitChar : ∀ n < 16, hexValue (Nat.digitChar n) = some n := by decide

/-- **One character**, escaped or not, is read as itself, and reading goes on after it. Case split
on how it was written. -/
theorem readString_escapeChar (c : Char) (rest : List Char) :
    readString (escapeChar c ++ rest)
      = (readString rest).map fun read => (c :: read.1, read.2) := by
  unfold escapeChar
  cases hfind : shortEscapes.find? (·.2 == c) with
  | some escape =>
    obtain ⟨letter, c'⟩ := escape
    have hc : c' = c := by simpa using List.find?_some hfind
    have hmem : (letter, c') ∈ shortEscapes := List.mem_of_find?_eq_some hfind
    subst hc
    simp only [shortEscapes, List.mem_cons, Prod.mk.injEq, List.not_mem_nil, or_false] at hmem
    rcases hmem with ⟨rfl, rfl⟩ | ⟨rfl, rfl⟩ | ⟨rfl, rfl⟩ | ⟨rfl, rfl⟩ | ⟨rfl, rfl⟩ | ⟨rfl, rfl⟩
      | ⟨rfl, rfl⟩ <;> simp [readString, shortEscapes, List.lookup]
  | none =>
    have hnone := List.find?_eq_none.mp hfind
    by_cases hcontrol : c.toNat < 0x20
    · have hhigh := hexValue_digitChar (c.toNat / 16) (by omega)
      have hlow := hexValue_digitChar (c.toNat % 16) (by omega)
      have hc : Char.ofNat (c.toNat / 16 * 16 + c.toNat % 16) = c := by
        rw [Nat.div_add_mod' c.toNat 16]
        exact Char.ofNat_toNat c
      simp only [if_pos hcontrol, List.cons_append, List.nil_append]
      rw [readString, hhigh, hlow]
      simp only [hc]
    · -- neither a quote nor a backslash
      have hquote : c ≠ '"' := fun h => hnone ('"', '"') (by decide) (by simp [h])
      have hback : c ≠ '\\' := fun h => hnone ('\\', '\\') (by decide) (by simp [h])
      simp only [if_neg hcontrol, List.cons_append, List.nil_append]
      rw [readString.eq_def]
      split <;> simp_all

/-- The characters of a string, up to the closing quote. Induction on them. -/
theorem readString_flatMap (l rest : List Char) :
    readString (l.flatMap escapeChar ++ '"' :: rest) = some (l, rest) := by
  induction l with
  | nil => simp [readString]
  | cons c l ih =>
    rw [List.flatMap_cons, List.append_assoc, readString_escapeChar, ih]
    rfl

/-- **What was written is read again**: a quoted string in front of anything is read as that string,
and what follows is left. -/
theorem readQuoted_quote (s : String) (rest : List Char) :
    readQuoted (quote s ++ rest) = some (s, rest) := by
  have hquote : quote s ++ rest = '"' :: (s.toList.flatMap escapeChar ++ '"' :: rest) := by
    simp [quote]
  rw [hquote, readQuoted, readString_flatMap]
  simp

theorem expect_append (text : String) (rest : List Char) :
    expect text (text.toList ++ rest) = some rest := by
  unfold expect
  rw [if_pos (List.isPrefixOf_iff_prefix.mpr (List.prefix_append _ _)), List.drop_left]

end AuthnKit.JsonText
