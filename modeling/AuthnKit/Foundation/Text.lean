import Mathlib

/-!
# AuthnKit — text operations

The string operations of the source's standard library that the mechanisms decide with, as
functions on Lean strings. They are defined on the characters of the text, so that they
evaluate, and each has the lemma its callers reason with.
-/

namespace AuthnKit.Text

/-- `s.starts_with(p)`. -/
def startsWith (p s : String) : Bool := p.toList.isPrefixOf s.toList

/-- `s.strip_prefix(p)`: what follows `p` in `s`. -/
def stripPrefix (p s : String) : Option String :=
  if startsWith p s then some (String.ofList (s.toList.drop p.toList.length)) else none

/-- `s.split(c)`: the pieces between the occurrences of `c`. -/
def split (c : Char) (s : String) : List String := (s.toList.splitOn c).map String.ofList

/-- `s.trim_end_matches(c)`. -/
def trimEndMatches (c : Char) (s : String) : String :=
  String.ofList (s.toList.reverse.dropWhile (· == c)).reverse

/-- `s.split_once(c)`: what comes before and after the first `c`. -/
def splitOnce (c : Char) (s : String) : Option (String × String) :=
  if c ∈ s.toList then
    some (String.ofList (s.toList.takeWhile (· != c)),
      String.ofList ((s.toList.dropWhile (· != c)).drop 1))
  else none

/-- `c.is_whitespace()`: Unicode property White_Space. -/
def isWhitespace (c : Char) : Bool :=
  (0x09 ≤ c.toNat && c.toNat ≤ 0x0D) || c.toNat == 0x20 || c.toNat == 0x85 || c.toNat == 0xA0
    || c.toNat == 0x1680 || (0x2000 ≤ c.toNat && c.toNat ≤ 0x200A) || c.toNat == 0x2028
    || c.toNat == 0x2029 || c.toNat == 0x202F || c.toNat == 0x205F || c.toNat == 0x3000

/-- `s.trim()`. -/
def trim (s : String) : String :=
  String.ofList ((s.toList.dropWhile isWhitespace).reverse.dropWhile isWhitespace).reverse

/-- The loop of `u64::from_str`: the first character that is no digit, or leaves the range, is an
error. -/
def parseDigits : List Char → ℕ → Except String ℕ
  | [], n => .ok n
  | c :: rest, n =>
    if 48 ≤ c.toNat ∧ c.toNat ≤ 57 then
      let n := n * 10 + (c.toNat - 48)
      if n < 2 ^ 64 then parseDigits rest n
      else .error "number too large to fit in target type"
    else .error "invalid digit found in string"

/-- `s.parse::<u64>()`. -/
def parseU64 (s : String) : Except String UInt64 :=
  match s.toList with
  | [] => .error "cannot parse integer from empty string"
  | ['+'] => .error "invalid digit found in string"
  | '+' :: digits => (parseDigits digits 0).map UInt64.ofNat
  | digits => (parseDigits digits 0).map UInt64.ofNat

example : parseU64 "+30" = .ok 30
    ∧ parseU64 "-1" = .error "invalid digit found in string"
    ∧ parseU64 "18446744073709551616" = .error "number too large to fit in target type" := by
  decide +kernel

/-- `c.is_control()`: Unicode category Cc. -/
def isControl (c : Char) : Bool := c.toNat < 0x20 || (0x7F ≤ c.toNat && c.toNat < 0xA0)

/-- Unicode category Cf: characters that only guide how others are shown. -/
def isFormat (c : Char) : Bool :=
  [(0xAD, 0xAD), (0x600, 0x605), (0x61C, 0x61C), (0x6DD, 0x6DD), (0x70F, 0x70F), (0x890, 0x891),
    (0x8E2, 0x8E2), (0x180E, 0x180E), (0x200B, 0x200F), (0x202A, 0x202E), (0x2060, 0x2064),
    (0x2066, 0x206F), (0xFEFF, 0xFEFF), (0xFFF9, 0xFFFB), (0x110BD, 0x110BD), (0x110CD, 0x110CD),
    (0x13430, 0x1343F), (0x1BCA0, 0x1BCA3), (0x1D173, 0x1D17A), (0xE0001, 0xE0001),
    (0xE0020, 0xE007F)].any fun range => range.1 ≤ c.toNat && c.toNat ≤ range.2

/-- Unicode category Co. -/
def isPrivateUse (c : Char) : Bool :=
  (0xE000 ≤ c.toNat && c.toNat ≤ 0xF8FF) || (0xF0000 ≤ c.toNat && c.toNat ≤ 0xFFFFD)
    || 0x100000 ≤ c.toNat && c.toNat ≤ 0x10FFFD

/-- What a reader would not see: control and format characters, characters without a meaning of their
own and, but for the space itself, white space. -/
def isUnprintable (c : Char) : Bool :=
  isControl c || isFormat c || isPrivateUse c || (isWhitespace c && c != ' ')

/-- A character as `{:?}` shows it inside a string. Combining marks and code points that are not
assigned, which Rust escapes as well, are left as they are. -/
def debugChar (c : Char) : List Char :=
  match c with
  | '\x00' => ['\\', '0']
  | '\t' => ['\\', 't']
  | '\r' => ['\\', 'r']
  | '\n' => ['\\', 'n']
  | '"' => ['\\', '"']
  | '\\' => ['\\', '\\']
  | c =>
    if isUnprintable c then
      ['\\', 'u', '\x7b'] ++ Nat.toDigits 16 c.toNat ++ ['\x7d']
    else [c]

/-- `format!("{s:?}")`. -/
def debug (s : String) : String := String.ofList ('"' :: s.toList.flatMap debugChar ++ ['"'])

example : debug "a\"\n\x7f\u200b" = "\"a\\\"\\n\\u\x7b7f\x7d\\u\x7b200b\x7d\"" := by decide +kernel

/-- A text starts with `p` exactly when it is `p` followed by something. -/
theorem startsWith_iff {p s : String} : startsWith p s = true ↔ ∃ rest, s = p ++ rest := by
  unfold startsWith
  rw [List.isPrefixOf_iff_prefix]
  constructor
  · rintro ⟨rest, h⟩
    refine ⟨String.ofList rest, ?_⟩
    rw [← String.toList_inj, String.toList_append, String.toList_ofList, h]
  · rintro ⟨rest, rfl⟩
    exact ⟨rest.toList, String.toList_append.symm⟩

/-- **Stripping a prefix inverts prepending it**: what is left is what followed `p`, and there is
something left only if `s` does start with `p`. -/
theorem stripPrefix_eq_some {p s rest : String} : stripPrefix p s = some rest ↔ s = p ++ rest := by
  unfold stripPrefix
  constructor
  · intro h
    by_cases hp : startsWith p s = true
    · rw [if_pos hp] at h
      obtain ⟨rest', rfl⟩ := startsWith_iff.mp hp
      rw [← Option.some.inj h, String.toList_append, List.drop_left, String.ofList_toList]
    · rw [if_neg hp] at h
      exact absurd h (by simp)
  · rintro rfl
    rw [if_pos (startsWith_iff.mpr ⟨rest, rfl⟩), String.toList_append, List.drop_left,
      String.ofList_toList]

/-! ## The characters of a piece

Splitting and trimming take characters away and add none, so a property that all characters of a
text have passes to its pieces. -/

/-- Every character satisfies `P`. -/
def All (P : Char → Prop) (s : String) : Prop := ∀ c ∈ s.toList, P c

instance (P : Char → Prop) [DecidablePred P] (s : String) : Decidable (All P s) :=
  decidable_of_iff ((s.toList.all fun c => decide (P c)) = true) (by simp [All])

/-- The characters of a piece are characters of the list. -/
theorem mem_of_mem_splitOn {c x : Char} {l piece : List Char} (hp : piece ∈ l.splitOn c)
    (hx : x ∈ piece) : x ∈ l := by
  induction l generalizing piece with
  | nil =>
    rw [List.splitOn_nil, List.mem_singleton] at hp
    rwa [hp] at hx
  | cons y l ih =>
    rw [List.splitOn, List.splitOnP_cons_eq_if_modifyHead] at hp
    split at hp
    · rcases List.mem_cons.mp hp with rfl | hp
      · exact absurd hx List.not_mem_nil
      · exact List.mem_cons_of_mem y (ih hp hx)
    · cases hs : l.splitOnP (· == c) with
      | nil => exact absurd hs (List.splitOnP_ne_nil _ l)
      | cons first rest =>
        rw [hs, List.modifyHead_cons] at hp
        rcases List.mem_cons.mp hp with rfl | hp
        · -- the first piece starts with `y`
          rcases List.mem_cons.mp hx with rfl | hx
          · exact List.mem_cons_self
          · have hfirst : first ∈ l.splitOn c := by rw [List.splitOn, hs]; exact List.mem_cons_self
            exact List.mem_cons_of_mem y (ih hfirst hx)
        · have hrest : piece ∈ l.splitOn c := by
            rw [List.splitOn, hs]
            exact List.mem_cons_of_mem first hp
          exact List.mem_cons_of_mem y (ih hrest hx)

/-- A piece lies between two separators, so it has none itself. Induction on the list. -/
theorem notMem_of_mem_splitOn {c : Char} {l piece : List Char} (hp : piece ∈ l.splitOn c) :
    c ∉ piece := by
  induction l generalizing piece with
  | nil =>
    rw [List.splitOn_nil, List.mem_singleton] at hp
    rw [hp]
    exact List.not_mem_nil
  | cons y l ih =>
    rw [List.splitOn, List.splitOnP_cons_eq_if_modifyHead] at hp
    split at hp
    · rcases List.mem_cons.mp hp with rfl | hp
      · exact List.not_mem_nil
      · exact ih hp
    next hy =>
      cases hs : l.splitOnP (· == c) with
      | nil => exact absurd hs (List.splitOnP_ne_nil _ l)
      | cons first rest =>
        rw [hs, List.modifyHead_cons] at hp
        have hmem : ∀ q ∈ first :: rest, c ∉ q := fun q hq => ih (by rwa [List.splitOn, hs])
        rcases List.mem_cons.mp hp with rfl | hp
        · rw [List.mem_cons, not_or]
          exact ⟨fun hc => hy (by rw [hc]; exact beq_self_eq_true y),
            hmem first List.mem_cons_self⟩
        · exact hmem piece (List.mem_cons_of_mem first hp)

theorem notMem_of_mem_split {c : Char} {s piece : String} (h : piece ∈ split c s) :
    c ∉ piece.toList := by
  obtain ⟨l, hl, rfl⟩ := List.mem_map.mp h
  rw [String.toList_ofList]
  exact notMem_of_mem_splitOn hl

variable {P : Char → Prop} {s : String}

/-- What all characters of a text satisfy, those of a piece do. -/
theorem All.split (h : All P s) {c : Char} {piece : String} (hp : piece ∈ split c s) :
    All P piece := by
  obtain ⟨l, hl, rfl⟩ := List.mem_map.mp hp
  intro x hx
  rw [String.toList_ofList] at hx
  exact h x (mem_of_mem_splitOn hl hx)

/-- What all characters of a text satisfy, those that are left after trimming do. -/
theorem All.trim (h : All P s) : All P (trim s) := by
  intro x hx
  rw [Text.trim, String.toList_ofList, List.mem_reverse] at hx
  have hx' := (List.dropWhile_sublist _).subset hx
  rw [List.mem_reverse] at hx'
  exact h x ((List.dropWhile_sublist _).subset hx')

/-- What all characters of a text satisfy, those of both its halves do. -/
theorem All.splitOnce (h : All P s) {c : Char} {a b : String} (hs : splitOnce c s = some (a, b)) :
    All P a ∧ All P b := by
  unfold Text.splitOnce at hs
  split at hs
  next =>
    simp only [Option.some.injEq, Prod.mk.injEq] at hs
    obtain ⟨rfl, rfl⟩ := hs
    constructor
    · intro x hx
      rw [String.toList_ofList] at hx
      exact h x ((List.takeWhile_sublist _).subset hx)
    · intro x hx
      rw [String.toList_ofList] at hx
      exact h x ((List.dropWhile_sublist _).subset ((List.drop_sublist 1 _).subset hx))
  next => exact absurd hs (by simp)

/-- There is nothing to split without the separator, and only then. -/
theorem splitOnce_eq_none_iff {c : Char} : splitOnce c s = none ↔ c ∉ s.toList := by
  unfold splitOnce
  split
  next h => simp [h]
  next h => simp [h]

/-- **The first occurrence is where a text is split**: the separator is not in the first half, and
the two halves with the separator between them are the text. So the halves are determined by the
text. -/
theorem splitOnce_eq_some_iff {c : Char} {a b : String} :
    splitOnce c s = some (a, b) ↔ c ∉ a.toList ∧ s = a ++ String.singleton c ++ b := by
  unfold splitOnce
  constructor
  · intro h
    split at h
    next hmem =>
      simp only [Option.some.injEq, Prod.mk.injEq] at h
      obtain ⟨rfl, rfl⟩ := h
      constructor
      · intro hc
        rw [String.toList_ofList] at hc
        have hne := List.mem_takeWhile_imp hc
        simp at hne
      · -- the dropped character is the separator
        have hhead : (s.toList.dropWhile (· != c)) = c :: (s.toList.dropWhile (· != c)).drop 1 := by
          cases hd : s.toList.dropWhile (· != c) with
          | nil =>
            have hall := List.dropWhile_eq_nil_iff.mp hd c hmem
            simp at hall
          | cons x rest =>
            have hnot := List.head?_dropWhile_not (· != c) s.toList
            rw [hd] at hnot
            have hx : x = c := by simpa using hnot
            rw [hx]
            rfl
        rw [← String.toList_inj]
        simp only [String.toList_append, String.toList_ofList, String.toList_singleton,
          List.append_assoc, List.singleton_append]
        rw [← hhead, List.takeWhile_append_dropWhile]
    next => exact absurd h (by simp)
  · rintro ⟨hc, rfl⟩
    have hlist : (a ++ String.singleton c ++ b).toList = a.toList ++ c :: b.toList := by
      simp
    have hfront : ∀ x ∈ a.toList, (x != c) = true := by
      intro x hx
      simp only [bne_iff_ne, ne_eq]
      rintro rfl
      exact hc hx
    have htake : (a.toList ++ c :: b.toList).takeWhile (· != c) = a.toList := by
      rw [List.takeWhile_append_of_pos hfront, List.takeWhile_cons_of_neg (by simp),
        List.append_nil]
    have hdrop : (a.toList ++ c :: b.toList).dropWhile (· != c) = c :: b.toList := by
      rw [List.dropWhile_append_of_pos hfront, List.dropWhile_cons_of_neg (by simp)]
    rw [hlist, if_pos (by simp), htake, hdrop]
    simp

/-! ## Trimming

Trimming takes whitespace off both ends. What is left begins and ends with a character that is none,
or is empty, so a second trimming finds nothing. -/

/-- Whitespace and nothing else. -/
def Blank (s : String) : Prop := All (isWhitespace · = true) s

instance (s : String) : Decidable (Blank s) := inferInstanceAs (Decidable (All _ s))

/-- No visible ASCII character is whitespace, by running through them. -/
theorem isWhitespace_of_visible {c : Char} (hlow : 0x21 ≤ c.toNat) (hhigh : c.toNat < 0x7F) :
    isWhitespace c = false := by
  unfold isWhitespace
  simp only [Bool.or_eq_false_iff, Bool.and_eq_false_iff, decide_eq_false_iff_not,
    beq_eq_false_iff_ne]
  omega

/-- **Surrounding whitespace does not matter**: a text between two blank ones is trimmed to what it
is trimmed to alone. -/
theorem trim_surround {before after : String} (hbefore : Blank before) (hafter : Blank after) :
    trim (before ++ s ++ after) = trim s := by
  unfold trim
  rw [String.toList_append, String.toList_append, List.append_assoc,
    List.dropWhile_append_of_pos hbefore, List.dropWhile_append]
  split
  next hnil =>
    -- `s` is whitespace too, and nothing is left
    rw [List.isEmpty_iff] at hnil
    rw [hnil, List.dropWhile_eq_nil_iff.mpr hafter]
  next =>
    rw [List.reverse_append, List.dropWhile_append_of_pos fun c hc =>
      hafter c (List.mem_reverse.mp hc)]

/-- **What trimming takes away is whitespace**, in front of what is left and behind it. -/
theorem exists_trim (s : String) :
    ∃ before after, Blank before ∧ Blank after ∧ s = before ++ trim s ++ after := by
  refine ⟨String.ofList (s.toList.takeWhile isWhitespace),
    String.ofList ((s.toList.dropWhile isWhitespace).reverse.takeWhile isWhitespace).reverse,
    ?_, ?_, ?_⟩
  · intro c hc
    rw [String.toList_ofList] at hc
    exact List.mem_takeWhile_imp hc
  · intro c hc
    rw [String.toList_ofList, List.mem_reverse] at hc
    exact List.mem_takeWhile_imp hc
  · rw [← String.toList_inj]
    unfold trim
    simp only [String.toList_append, String.toList_ofList]
    rw [List.append_assoc, ← List.reverse_append, List.takeWhile_append_dropWhile,
      List.reverse_reverse, List.takeWhile_append_dropWhile]

theorem trim_trim (s : String) : trim (trim s) = trim s := by
  obtain ⟨before, after, hbefore, hafter, hs⟩ := exists_trim s
  have h := trim_surround (s := trim s) hbefore hafter
  rw [← hs] at h
  exact h.symm

/-- Nothing is left exactly of a text that is whitespace and nothing else. -/
theorem trim_eq_empty_iff : trim s = "" ↔ Blank s := by
  constructor
  · intro h c hc
    obtain ⟨before, after, hbefore, hafter, hs⟩ := exists_trim s
    rw [h] at hs
    rw [hs, String.toList_append, String.toList_append] at hc
    simp only [List.mem_append] at hc
    rcases hc with (hc | hc) | hc
    · exact hbefore c hc
    · exact absurd hc (by simp)
    · exact hafter c hc
  · intro h
    have hempty : Blank "" := fun c hc => absurd hc (by simp)
    have htrim := trim_surround (s := "") h hempty
    rw [String.append_empty, String.append_empty] at htrim
    rw [htrim]
    rfl

/-- Nothing is dropped from a list whose first element does not satisfy the test. -/
theorem dropWhile_eq_self {p : Char → Bool} {l : List Char}
    (h : ∀ c, l.head? = some c → p c = false) : l.dropWhile p = l := by
  cases l with
  | nil => rfl
  | cons c l => exact List.dropWhile_cons_of_neg (by simp [h c rfl])

/-- **Trimmed is a text with no whitespace at its ends.** The empty text has no ends, and is
trimmed. -/
theorem trim_eq_self_iff : trim s = s ↔
    (∀ c, s.toList.head? = some c → isWhitespace c = false)
      ∧ ∀ c, s.toList.getLast? = some c → isWhitespace c = false := by
  constructor
  · intro h
    have hlist : ((s.toList.dropWhile isWhitespace).reverse.dropWhile isWhitespace).reverse
        = s.toList := by
      have hl := congrArg String.toList h
      unfold trim at hl
      rwa [String.toList_ofList] at hl
    -- dropping from either end leaves nothing shorter
    have hfront : (s.toList.dropWhile isWhitespace) = s.toList := by
      apply (List.dropWhile_sublist _).eq_of_length_le
      have hlen := congrArg List.length hlist
      rw [List.length_reverse] at hlen
      have hle := (List.dropWhile_sublist (l := (s.toList.dropWhile isWhitespace).reverse)
        isWhitespace).length_le
      rw [List.length_reverse] at hle
      omega
    rw [hfront] at hlist
    have hback : s.toList.reverse.dropWhile isWhitespace = s.toList.reverse := by
      rw [← List.reverse_inj, hlist, List.reverse_reverse]
    have hends : ∀ {l : List Char} {c : Char}, l.dropWhile isWhitespace = l → l.head? = some c →
        isWhitespace c = false := by
      intro l c hl hc
      have hnot := List.head?_dropWhile_not isWhitespace l
      rw [hl, hc] at hnot
      simpa using hnot
    refine ⟨fun c hc => hends hfront hc, fun c hc => ?_⟩
    rw [List.getLast?_eq_head?_reverse] at hc
    exact hends hback hc
  · intro ⟨hfront, hback⟩
    have hreverse : ∀ c, s.toList.reverse.head? = some c → isWhitespace c = false := by
      intro c hc
      rw [← List.getLast?_eq_head?_reverse] at hc
      exact hback c hc
    unfold trim
    rw [dropWhile_eq_self hfront, dropWhile_eq_self hreverse, List.reverse_reverse,
      String.ofList_toList]

/-- A trimmed text does not end in whitespace, so no part at its end is blank, unless it is empty.
-/
theorem not_blank_of_trim_append {s t : String} (h : trim (s ++ t) = s ++ t) (ht : t ≠ "") :
    ¬ Blank t := by
  intro hblank
  have hne : t.toList ≠ [] := fun hnil => ht (String.toList_eq_nil_iff.mp hnil)
  obtain ⟨c, hc⟩ := Option.ne_none_iff_exists'.mp (mt List.getLast?_eq_none_iff.mp hne)
  have hend := (trim_eq_self_iff.mp h).2 c
    (by rw [String.toList_append, List.getLast?_append_of_ne_nil _ hne, hc])
  rw [hblank c (List.mem_of_getLast? hc)] at hend
  cases hend

/-- **Trimming one character undoes appending it**, any number of times, to a text that does not
have it. -/
theorem trimEndMatches_append {c : Char} (h : c ∉ s.toList) (n : ℕ) :
    trimEndMatches c (s ++ String.ofList (List.replicate n c)) = s := by
  have hall : ∀ x ∈ List.replicate n c, (x == c) = true := by
    intro x hx
    rw [List.eq_of_mem_replicate hx]
    exact beq_self_eq_true c
  have hstop : ∀ x, s.toList.reverse.head? = some x → (x == c) = false := by
    intro x hx
    have hmem := List.mem_reverse.mp (List.mem_of_head? hx)
    rw [beq_eq_false_iff_ne]
    rintro rfl
    exact h hmem
  unfold trimEndMatches
  rw [String.toList_append, String.toList_ofList, List.reverse_append, List.reverse_replicate,
    List.dropWhile_append_of_pos hall, dropWhile_eq_self hstop, List.reverse_reverse,
    String.ofList_toList]

/-- What is trimmed away are occurrences of the character, at the end of the text. -/
theorem exists_trimEndMatches (c : Char) (s : String) :
    ∃ n, s = trimEndMatches c s ++ String.ofList (List.replicate n c) := by
  refine ⟨(s.toList.reverse.takeWhile (· == c)).length, ?_⟩
  have hrep : s.toList.reverse.takeWhile (· == c)
      = List.replicate (s.toList.reverse.takeWhile (· == c)).length c := by
    rw [List.eq_replicate_iff]
    refine ⟨rfl, fun x hx => ?_⟩
    exact eq_of_beq (List.mem_takeWhile_imp (p := (· == c)) hx)
  have hlist := List.takeWhile_append_dropWhile (p := (· == c)) (l := s.toList.reverse)
  have hreverse := congrArg List.reverse hlist
  rw [List.reverse_append, List.reverse_reverse, hrep, List.reverse_replicate] at hreverse
  rw [← String.toList_inj]
  unfold trimEndMatches
  rw [String.toList_append, String.toList_ofList, String.toList_ofList]
  exact hreverse.symm

/-! ## Pieces put together

Splitting is inverted by putting the separator back between the pieces, and the other way round for
pieces that do not have it. -/

/-- The pieces, with `c` between them. -/
def join (c : Char) (pieces : List String) : String :=
  String.ofList (List.intercalate [c] (pieces.map String.toList))

/-- One more piece in front of some others, with the separator after it. -/
theorem join_cons {c : Char} {piece : String} {pieces : List String} (h : pieces ≠ []) :
    join c (piece :: pieces) = piece ++ String.singleton c ++ join c pieces := by
  rw [← String.toList_inj]
  cases pieces with
  | nil => exact absurd rfl h
  | cons next pieces =>
    unfold join
    simp [List.intercalate]

/-- The first separator ends the first piece; what follows is split on its own. -/
theorem split_append {c : Char} {piece : String} (h : c ∉ piece.toList) (rest : String) :
    split c (piece ++ String.singleton c ++ rest) = piece :: split c rest := by
  have hsplit : (piece ++ String.singleton c ++ rest).toList.splitOn c
      = piece.toList :: rest.toList.splitOn c := by
    rw [String.toList_append, String.toList_append, String.toList_singleton, List.append_assoc]
    rw [List.singleton_append, List.splitOn_append_cons_self, List.splitOn_eq_singleton h]
    rfl
  unfold split
  rw [hsplit, List.map_cons, String.ofList_toList]

/-- **Splitting undoes joining**, and goes on in the last piece, which may have separators of its
own. Induction on the pieces. -/
theorem split_join {c : Char} {pieces : List String} (h : ∀ piece ∈ pieces, c ∉ piece.toList)
    (rest : String) : split c (join c (pieces ++ [rest])) = pieces ++ split c rest := by
  induction pieces with
  | nil => simp [join, List.intercalate]
  | cons piece pieces ih =>
    rw [List.cons_append, join_cons (by simp), split_append (h piece List.mem_cons_self),
      ih fun p hp => h p (List.mem_cons_of_mem piece hp)]
    rfl

theorem split_of_notMem {c : Char} (h : c ∉ s.toList) : split c s = [s] := by
  unfold split
  rw [List.splitOn_eq_singleton h, List.map_singleton, String.ofList_toList]

/-- Pieces without the separator are all there is: splitting what was joined gives them back. -/
theorem split_join_self {c : Char} {pieces : List String} (hne : pieces ≠ [])
    (h : ∀ piece ∈ pieces, c ∉ piece.toList) : split c (join c pieces) = pieces := by
  have hlast : c ∉ (pieces.getLast hne).toList := h _ (List.getLast_mem hne)
  have hinit : ∀ piece ∈ pieces.dropLast, c ∉ piece.toList :=
    fun piece hp => h piece (List.mem_of_mem_dropLast hp)
  have hsplit := split_join hinit (pieces.getLast hne)
  rw [List.dropLast_append_getLast hne, split_of_notMem hlast,
    List.dropLast_append_getLast hne] at hsplit
  exact hsplit

/-- The first piece is the whole text exactly when there is nothing to split. -/
theorem head?_split {c : Char} : (split c s).head? = some s ↔ c ∉ s.toList := by
  constructor
  · intro h hc
    cases hs : splitOnce c s with
    | none => exact splitOnce_eq_none_iff.mp hs hc
    | some parts =>
      obtain ⟨a, b⟩ := parts
      obtain ⟨ha, hab⟩ := splitOnce_eq_some_iff.mp hs
      rw [hab, split_append ha, List.head?_cons] at h
      -- the piece would be as long as a text that goes on after it
      have hlen := congrArg (fun t => t.toList.length) (Option.some.inj h)
      simp at hlen
  · intro hc
    rw [split_of_notMem hc]
    rfl

/-! ## UTF-8

A text and its bytes determine each other. What is compared byte by byte in the code is therefore
compared as text here. -/

/-- The bytes of a text are those of its characters, in turn, so properties of bytes are proved one
character at a time. -/
theorem toUTF8_eq_flatMap (s : String) :
    s.toUTF8.data.toList = s.toList.flatMap String.utf8EncodeChar := by
  rw [String.toUTF8, ← String.utf8Encode_toList, List.utf8Encode, List.data_toByteArray]

/-- An ASCII character is one byte, and its number is the character's: where a text is all ASCII,
its bytes are its characters. -/
theorem mem_toUTF8_of_ascii (h : All (·.toNat < 0x80) s) {b : UInt8}
    (hb : b ∈ s.toUTF8.data.toList) : ∃ c ∈ s.toList, b.toNat = c.toNat := by
  rw [toUTF8_eq_flatMap, List.mem_flatMap] at hb
  obtain ⟨c, hc, hbyte⟩ := hb
  have hlow : c.toNat < 0x80 := h c hc
  refine ⟨c, hc, ?_⟩
  have hone : String.utf8EncodeChar c = [UInt8.ofNat c.toNat] := by
    unfold String.utf8EncodeChar
    rw [if_pos (show c.val.toNat ≤ 0x7f from Nat.le_of_lt_succ hlow)]
    rfl
  rw [hone, List.mem_singleton] at hbyte
  rw [hbyte, UInt8.toNat_ofNat', Nat.mod_eq_of_lt (by omega)]

/-- **A part of a text is the whole of it, or has fewer bytes.** Trimmed and stripped texts are
parts, so a comparison of lengths tells whether something was taken off. -/
theorem eq_or_shorter {before after t : String} (h : s = before ++ t ++ after) :
    t = s ∨ t.utf8ByteSize < s.utf8ByteSize := by
  by_cases hnone : before.utf8ByteSize = 0 ∧ after.utf8ByteSize = 0
  · left
    rw [h, String.utf8ByteSize_eq_zero_iff.mp hnone.1, String.utf8ByteSize_eq_zero_iff.mp hnone.2]
    simp
  · right
    rw [h, String.utf8ByteSize_append, String.utf8ByteSize_append]
    omega

/-- **Bytes are read as the text they encode, or not at all**: reading inverts encoding in both
directions. -/
theorem fromUTF8?_eq_some_iff {bytes : List UInt8} :
    String.fromUTF8? ⟨bytes.toArray⟩ = some s ↔ bytes = s.toUTF8.data.toList := by
  constructor
  · intro h
    unfold String.fromUTF8? at h
    split at h
    next hvalid =>
      rw [← Option.some.inj h]
      rfl
    next => exact absurd h (by simp)
  · rintro rfl
    have hvalid : ByteArray.IsValidUTF8 ⟨s.toUTF8.data.toList.toArray⟩ := by
      simpa using s.isValidUTF8
    unfold String.fromUTF8?
    rw [dif_pos hvalid]
    rfl

/-! ## ASCII case

Lowering the case moves twenty-six letters and nothing else, so it neither makes nor removes
whitespace. -/

theorem toNat_toLower (c : Char) :
    c.toLower.toNat = if 65 ≤ c.toNat ∧ c.toNat ≤ 90 then c.toNat + 32 else c.toNat := by
  have hval : c.val.toNat = c.toNat := rfl
  unfold Char.toLower
  by_cases h : c.val ≥ 'A'.val ∧ c.val ≤ 'Z'.val
  · rw [dif_pos h]
    have h' : 65 ≤ c.toNat ∧ c.toNat ≤ 90 := h
    rw [if_pos h']
    show (c.val + ('a'.val - 'A'.val)).toNat = _
    rw [UInt32.toNat_add, hval]
    have : ('a'.val - 'A'.val).toNat = 32 := by decide
    omega
  · rw [dif_neg h]
    have h' : ¬ (65 ≤ c.toNat ∧ c.toNat ≤ 90) := h
    rw [if_neg h']

@[simp] theorem isWhitespace_toLower (c : Char) : isWhitespace c.toLower = isWhitespace c := by
  rw [Bool.eq_iff_iff]
  unfold isWhitespace
  simp only [Bool.or_eq_true, Bool.and_eq_true, decide_eq_true_eq, beq_iff_eq, toNat_toLower]
  split <;> omega

@[simp] theorem toLower_eq_space {c : Char} : c.toLower = ' ' ↔ c = ' ' := by
  rw [← Char.toNat_inj, ← Char.toNat_inj, toNat_toLower]
  have h : (' ' : Char).toNat = 32 := rfl
  rw [h]
  split <;> omega

/-- Lower case stays as it is when it is lowered again, since what a capital becomes is no capital.
-/
@[simp] theorem toLower_toLower (s : String) : s.toLower.toLower = s.toLower := by
  rw [← String.toList_inj]
  unfold String.toLower
  rw [String.toList_map, String.toList_map, List.map_map]
  apply List.map_congr_left
  intro c _
  rw [Function.comp_apply, ← Char.toNat_inj, toNat_toLower, toNat_toLower]
  by_cases h : 65 ≤ c.toNat ∧ c.toNat ≤ 90
  · rw [if_pos h, if_neg (by omega)]
  · rw [if_neg h, if_neg h]

end AuthnKit.Text
