import AuthnKit.Foundation.Text

/-!
# AuthnKit — query strings

`application/x-www-form-urlencoded` parsing, on bytes: pairs between `&`, split at their first `=`,
with `+` for a space and `%` escapes, and read as UTF-8 with a replacement character for every
maximal ill-formed piece.

* **`utf8Lossy`**, **`percentDecode`** — the two decodings of a name or a value.
* **`parse`** — the pairs of a query string, in order.
* **`parse_serialize`** — pairs that were written are read back, whatever their text.
-/

namespace AuthnKit.FormUrlencoded

/-! ## UTF-8 -/

def replacement : Char := Char.ofNat 0xFFFD

def isContinuation (b : UInt8) : Bool := 0x80 ≤ b.toNat && b.toNat < 0xC0

/-- Whether `b` may follow the lead byte `a`: no overlong forms, no surrogates, nothing above
`U+10FFFF`. -/
def follows (a b : UInt8) : Bool :=
  if a.toNat = 0xE0 then 0xA0 ≤ b.toNat && b.toNat < 0xC0
  else if a.toNat = 0xED then 0x80 ≤ b.toNat && b.toNat < 0xA0
  else if a.toNat = 0xF0 then 0x90 ≤ b.toNat && b.toNat < 0xC0
  else if a.toNat = 0xF4 then 0x80 ≤ b.toNat && b.toNat < 0x90
  else isContinuation b

/-- `String::from_utf8_lossy`: an incomplete or ill-formed piece becomes one replacement
character, and what comes after it is read from there. -/
def utf8Lossy : List UInt8 → List Char
  | [] => []
  | a :: rest =>
    if a.toNat < 0x80 then Char.ofNat a.toNat :: utf8Lossy rest
    else if a.toNat < 0xC2 || 0xF4 < a.toNat then replacement :: utf8Lossy rest
    else match rest with
      | [] => [replacement]
      | b :: rest₁ =>
        if !follows a b then replacement :: utf8Lossy (b :: rest₁)
        else if a.toNat < 0xE0 then
          Char.ofNat (a.toNat % 0x20 * 0x40 + b.toNat % 0x40) :: utf8Lossy rest₁
        else match rest₁ with
          | [] => [replacement]
          | c :: rest₂ =>
            if !isContinuation c then replacement :: utf8Lossy (c :: rest₂)
            else if a.toNat < 0xF0 then
              Char.ofNat ((a.toNat % 0x10 * 0x40 + b.toNat % 0x40) * 0x40 + c.toNat % 0x40)
                :: utf8Lossy rest₂
            else match rest₂ with
              | [] => [replacement]
              | d :: rest₃ =>
                if !isContinuation d then replacement :: utf8Lossy (d :: rest₃)
                else Char.ofNat (((a.toNat % 0x08 * 0x40 + b.toNat % 0x40) * 0x40
                  + c.toNat % 0x40) * 0x40 + d.toNat % 0x40) :: utf8Lossy rest₃

/-! ## Escapes -/

def hexValue (b : UInt8) : Option ℕ :=
  if 0x30 ≤ b.toNat && b.toNat ≤ 0x39 then some (b.toNat - 0x30)
  else if 0x41 ≤ b.toNat && b.toNat ≤ 0x46 then some (b.toNat - 0x41 + 10)
  else if 0x61 ≤ b.toNat && b.toNat ≤ 0x66 then some (b.toNat - 0x61 + 10)
  else none

/-- A `%` that two hexadecimal digits do not follow stands for itself. -/
def percentDecode : List UInt8 → List UInt8
  | [] => []
  | a :: rest =>
    if a.toNat = 0x25 then match rest with
      | b :: c :: rest' => match hexValue b, hexValue c with
        | some high, some low => .ofNat (high * 16 + low) :: percentDecode rest'
        | _, _ => a :: percentDecode (b :: c :: rest')
      | rest => a :: rest
    else a :: percentDecode rest

/-- **Decoding shortens, or changes nothing.** Induction along the decoder; an escape costs three
bytes and leaves one. A decoded text is thereby told apart from the written one by its length. -/
theorem percentDecode_shortens (l : List UInt8) :
    percentDecode l = l ∨ (percentDecode l).length < l.length := by
  induction l using percentDecode.induct with
  | case1 => exact .inl rfl
  | case2 a ha b c rest high low hlow hhigh ih =>
    right
    rw [percentDecode.eq_def]
    simp only [if_pos ha, hhigh, hlow, List.length_cons]
    rcases ih with ih | ih
    · rw [ih]
      omega
    · omega
  | case3 a ha b c rest hno ih =>
    have hstep : percentDecode (a :: b :: c :: rest) = a :: percentDecode (b :: c :: rest) := by
      rw [percentDecode.eq_def]
      simp only [if_pos ha]
    rw [hstep]
    rcases ih with ih | ih
    · exact .inl (congrArg (a :: ·) ih)
    · exact .inr (Nat.succ_lt_succ ih)
  | case4 a ha rest hshort =>
    left
    rw [percentDecode.eq_def]
    simp only [if_pos ha]
  | case5 a rest ha ih =>
    rw [percentDecode.eq_def]
    simp only [if_neg ha]
    rcases ih with ih | ih
    · exact .inl (congrArg (a :: ·) ih)
    · exact .inr (Nat.succ_lt_succ ih)

/-- Without a `%` there is nothing to decode, and the bytes are left as they are. -/
theorem percentDecode_of_notMem {l : List UInt8} (h : ∀ b ∈ l, b.toNat ≠ 0x25) :
    percentDecode l = l := by
  induction l with
  | nil => rw [percentDecode.eq_def]
  | cons b l ih =>
    rw [percentDecode.eq_def]
    simp only [if_neg (h b List.mem_cons_self)]
    rw [ih fun x hx => h x (List.mem_cons_of_mem b hx)]

def plusToSpace (b : UInt8) : UInt8 := if b.toNat = 0x2B then 0x20 else b

def decode (piece : List UInt8) : String :=
  String.ofList (utf8Lossy (percentDecode (piece.map plusToSpace)))

/-! ## Pairs -/

/-- One piece between `&`: a name and, after the first `=`, a value. -/
def pair (piece : List UInt8) : String × String :=
  (decode (piece.takeWhile fun b => b.toNat ≠ 0x3D),
    decode ((piece.dropWhile fun b => b.toNat ≠ 0x3D).drop 1))

def parse (input : List UInt8) : List (String × String) :=
  ((input.splitOn 0x26).filter fun piece => !piece.isEmpty).map pair

example : parse "code=a%2Bb+c&&state=%C3%A9%ff&state=x=y".toUTF8.data.toList
    = [("code", "a+b c"), ("state", "é\uFFFD"), ("state", "x=y")] := by decide +kernel

/-! ## Writing

The serializer escapes every byte that means something in a query or a form, byte by byte, so the
text it writes is plain ASCII. -/

def hexDigit (n : ℕ) : UInt8 := .ofNat (if n < 10 then 0x30 + n else 0x41 + n - 10)

/-- Letters, digits and `*-._` stand for themselves. -/
def isUnreserved (b : UInt8) : Bool :=
  0x30 ≤ b.toNat && b.toNat ≤ 0x39 || 0x41 ≤ b.toNat && b.toNat ≤ 0x5A
    || 0x61 ≤ b.toNat && b.toNat ≤ 0x7A
    || b.toNat = 0x2A || b.toNat = 0x2D || b.toNat = 0x2E || b.toNat = 0x5F

/-- One byte of a name or a value: a space becomes `+`, anything else that is reserved a `%`
escape. -/
def byteSerialize (b : UInt8) : List UInt8 :=
  if b.toNat = 0x20 then [0x2B]
  else if isUnreserved b then [b]
  else [0x25, hexDigit (b.toNat / 16), hexDigit (b.toNat % 16)]

def encode (s : String) : List UInt8 := s.toUTF8.data.toList.flatMap byteSerialize

/-- A list of pairs as a query string or a form body. -/
def serialize (pairs : List (String × String)) : List UInt8 :=
  [0x26].intercalate (pairs.map fun p => encode p.1 ++ 0x3D :: encode p.2)

/-! ### Bytes

What was written for one byte is read as that byte, whatever follows it. -/

theorem hexValue_hexDigit : ∀ n < 16, hexValue (hexDigit n) = some n := by decide

theorem plusToSpace_hexDigit : ∀ n < 16, plusToSpace (hexDigit n) = hexDigit n := by decide

/-- What is written is made of these bytes only: a plus sign, a percent sign and unreserved ones. -/
theorem mem_byteSerialize {b x : UInt8} (h : x ∈ byteSerialize b) :
    x = 0x2B ∨ x = 0x25 ∨ isUnreserved x = true := by
  have hdigit : ∀ n < 16, isUnreserved (hexDigit n) = true := by decide
  have hb := b.toNat_lt
  unfold byteSerialize at h
  split at h
  · exact .inl (List.mem_singleton.mp h)
  · split at h
    next hun =>
      rw [List.mem_singleton.mp h]
      exact .inr (.inr hun)
    next =>
      simp only [List.mem_cons, List.not_mem_nil, or_false] at h
      rcases h with rfl | rfl | rfl
      · exact .inr (.inl rfl)
      · exact .inr (.inr (hdigit _ (by omega)))
      · exact .inr (.inr (hdigit _ (by omega)))

/-- Neither separator is written inside a name or a value, since both are reserved; that is what
makes the pieces of a form separable. -/
theorem notMem_encode {x : UInt8} (hx : x = 0x26 ∨ x = 0x3D) (s : String) : x ∉ encode s := by
  intro h
  obtain ⟨b, -, hb⟩ := List.mem_flatMap.mp h
  rcases mem_byteSerialize hb with rfl | rfl | hun
  · exact absurd hx (by decide)
  · exact absurd hx (by decide)
  · rcases hx with rfl | rfl
    · exact absurd hun (by decide)
    · exact absurd hun (by decide)

/-- **One byte, read back**, in front of anything: an unreserved byte as itself, a space as the plus
sign it was written as, and every other one from its escape. -/
theorem percentDecode_byteSerialize (b : UInt8) (rest : List UInt8) :
    percentDecode ((byteSerialize b).map plusToSpace ++ rest) = b :: percentDecode rest := by
  have hb := b.toNat_lt
  unfold byteSerialize
  split
  next hspace =>
    have : b = 0x20 := UInt8.toNat_inj.mp hspace
    subst this
    rw [percentDecode.eq_def]
    rfl
  next =>
    split
    next hun =>
      -- neither `%` nor `+` stands for itself
      have hplus : b.toNat ≠ 0x2B := by
        intro h
        rw [UInt8.toNat_inj.mp (show b.toNat = (0x2B : UInt8).toNat from h)] at hun
        exact absurd hun (by decide)
      have hpercent : b.toNat ≠ 0x25 := by
        intro h
        rw [UInt8.toNat_inj.mp (show b.toNat = (0x25 : UInt8).toNat from h)] at hun
        exact absurd hun (by decide)
      simp only [List.map_cons, List.map_nil, plusToSpace, if_neg hplus, List.cons_append,
        List.nil_append]
      rw [percentDecode.eq_def]
      simp only [if_neg hpercent]
    next =>
      have hhigh := hexValue_hexDigit (b.toNat / 16) (by omega)
      have hlow := hexValue_hexDigit (b.toNat % 16) (by omega)
      have hpercent : plusToSpace 0x25 = 0x25 := by decide
      simp only [List.map_cons, List.map_nil, hpercent,
        plusToSpace_hexDigit (b.toNat / 16) (by omega),
        plusToSpace_hexDigit (b.toNat % 16) (by omega), List.cons_append, List.nil_append]
      rw [percentDecode.eq_def]
      simp only [show (0x25 : UInt8).toNat = 0x25 from rfl, if_true, hhigh, hlow]
      rw [show b.toNat / 16 * 16 + b.toNat % 16 = b.toNat by omega, UInt8.ofNat_toNat]

theorem percentDecode_encode (bytes : List UInt8) :
    percentDecode ((bytes.flatMap byteSerialize).map plusToSpace) = bytes := by
  induction bytes with
  | nil => rw [List.flatMap_nil, List.map_nil, percentDecode.eq_def]
  | cons b bytes ih =>
    rw [List.flatMap_cons, List.map_append, percentDecode_byteSerialize, ih]

/-! ### Text

The bytes of a text are well-formed UTF-8, so the lossy reader, which replaces what is not, replaces
nothing in them. One lemma for each length of an encoding. -/

/-- Which second bytes may follow a first one, spelled out in numbers. -/
theorem follows_iff {a b : UInt8} : follows a b = true ↔ (0x80 ≤ b.toNat ∧ b.toNat < 0xC0)
    ∧ (a.toNat = 0xE0 → 0xA0 ≤ b.toNat) ∧ (a.toNat = 0xED → b.toNat < 0xA0)
    ∧ (a.toNat = 0xF0 → 0x90 ≤ b.toNat) ∧ (a.toNat = 0xF4 → b.toNat < 0x90) := by
  unfold follows isContinuation
  split_ifs <;> simp only [Bool.and_eq_true, decide_eq_true_eq] <;> omega

section WellFormed

variable {a b c d : UInt8} {rest : List UInt8}

theorem utf8Lossy_one (ha : a.toNat < 0x80) :
    utf8Lossy (a :: rest) = Char.ofNat a.toNat :: utf8Lossy rest := by
  rw [utf8Lossy.eq_def]
  simp only [if_pos ha]

/-- A well-formed sequence of two bytes is read as the character with their payload. -/
theorem utf8Lossy_two (ha : 0xC2 ≤ a.toNat ∧ a.toNat < 0xE0) (hb : follows a b = true) :
    utf8Lossy (a :: b :: rest)
      = Char.ofNat (a.toNat % 0x20 * 0x40 + b.toNat % 0x40) :: utf8Lossy rest := by
  rw [utf8Lossy.eq_def]
  simp only [hb, Bool.not_true, Bool.false_eq_true, if_false]
  rw [if_neg (by omega), if_neg (by simp; omega), if_pos ha.2]

theorem utf8Lossy_three (ha : 0xE0 ≤ a.toNat ∧ a.toNat < 0xF0) (hb : follows a b = true)
    (hc : isContinuation c = true) :
    utf8Lossy (a :: b :: c :: rest)
      = Char.ofNat ((a.toNat % 0x10 * 0x40 + b.toNat % 0x40) * 0x40 + c.toNat % 0x40)
        :: utf8Lossy rest := by
  rw [utf8Lossy.eq_def]
  simp only [hb, hc, Bool.not_true, Bool.false_eq_true, if_false]
  rw [if_neg (by omega), if_neg (by simp; omega), if_neg (by omega), if_pos ha.2]

theorem utf8Lossy_four (ha : 0xF0 ≤ a.toNat ∧ a.toNat ≤ 0xF4) (hb : follows a b = true)
    (hc : isContinuation c = true) (hd : isContinuation d = true) :
    utf8Lossy (a :: b :: c :: d :: rest)
      = Char.ofNat (((a.toNat % 0x08 * 0x40 + b.toNat % 0x40) * 0x40 + c.toNat % 0x40) * 0x40
          + d.toNat % 0x40) :: utf8Lossy rest := by
  rw [utf8Lossy.eq_def]
  simp only [hb, hc, hd, Bool.not_true, Bool.false_eq_true, if_false]
  rw [if_neg (by omega), if_neg (by simp; omega), if_neg (by omega), if_neg (by omega)]

end WellFormed

/-- **One character, read back**: its encoding is well-formed, so none of it is replaced. Case split
on the length of the encoding. -/
theorem utf8Lossy_utf8EncodeChar (c : Char) (rest : List UInt8) :
    utf8Lossy (String.utf8EncodeChar c ++ rest) = c :: utf8Lossy rest := by
  have hofNat : ∀ n, n = c.toNat → Char.ofNat n = c := by
    rintro n rfl
    exact Char.ofNat_toNat c
  have hbyte : ∀ n < 0x100, (UInt8.ofNat n).toNat = n := by
    intro n hn
    rw [UInt8.toNat_ofNat', Nat.mod_eq_of_lt hn]
  -- no surrogates, nothing above `U+10FFFF`
  have hvalid : c.toNat < 0xD800 ∨ 0xDFFF < c.toNat ∧ c.toNat < 0x110000 := c.valid
  unfold String.utf8EncodeChar
  simp only [show c.val.toNat = c.toNat from rfl]
  split_ifs with h₁ h₂ h₃
  · have ha := hbyte c.toNat (by omega)
    rw [List.singleton_append, utf8Lossy_one (by omega), hofNat _ ha]
  · have ha := hbyte (c.toNat / 64 % 0x20 + 0xc0) (by omega)
    have hb := hbyte (c.toNat % 0x40 + 0x80) (by omega)
    rw [List.cons_append, List.singleton_append,
      utf8Lossy_two (by omega) (follows_iff.mpr (by omega)), hofNat _ (by omega)]
  · have ha := hbyte (c.toNat / 4096 % 0x10 + 0xe0) (by omega)
    have hb := hbyte (c.toNat / 64 % 0x40 + 0x80) (by omega)
    have hc := hbyte (c.toNat % 0x40 + 0x80) (by omega)
    rw [List.cons_append, List.cons_append, List.singleton_append,
      utf8Lossy_three (by omega) (follows_iff.mpr (by omega)) (by simp [isContinuation]; omega),
      hofNat _ (by omega)]
  · have ha := hbyte (c.toNat / 262144 % 0x08 + 0xf0) (by omega)
    have hb := hbyte (c.toNat / 4096 % 0x40 + 0x80) (by omega)
    have hc := hbyte (c.toNat / 64 % 0x40 + 0x80) (by omega)
    have hd := hbyte (c.toNat % 0x40 + 0x80) (by omega)
    rw [List.cons_append, List.cons_append, List.cons_append, List.singleton_append,
      utf8Lossy_four (by omega) (follows_iff.mpr (by omega)) (by simp [isContinuation]; omega)
        (by simp [isContinuation]; omega), hofNat _ (by omega)]

/-- The characters of a text, read back one after the other. -/
theorem utf8Lossy_flatMap (l : List Char) : utf8Lossy (l.flatMap String.utf8EncodeChar) = l := by
  induction l with
  | nil => rw [List.flatMap_nil, utf8Lossy.eq_def]
  | cons c l ih => rw [List.flatMap_cons, utf8Lossy_utf8EncodeChar, ih]

/-- **One name or value, read back**: first the bytes, then the text they encode. -/
theorem decode_encode (s : String) : decode (encode s) = s := by
  unfold decode encode
  rw [percentDecode_encode, Text.toUTF8_eq_flatMap, utf8Lossy_flatMap, String.ofList_toList]

/-! ### Pairs

Names and values are put together with two separators that neither of them has, and are therefore
found again by splitting. -/

/-- A name, the first equals sign and a value are read as the pair they were written for. -/
theorem pair_written (p : String × String) : pair (encode p.1 ++ 0x3D :: encode p.2) = p := by
  have hname : ∀ b ∈ encode p.1, (decide (b.toNat ≠ 0x3D)) = true := by
    intro b hb
    refine decide_eq_true fun h => notMem_encode (.inr rfl) p.1 ?_
    rwa [UInt8.toNat_inj.mp (show b.toNat = (0x3D : UInt8).toNat from h)] at hb
  unfold pair
  rw [List.takeWhile_append_of_pos hname, List.dropWhile_append_of_pos hname,
    List.takeWhile_cons_of_neg (by decide), List.dropWhile_cons_of_neg (by decide),
    List.append_nil, List.drop_succ_cons, List.drop_zero, decode_encode, decode_encode]

/-- **Pairs that were written are read back**, in their order and whatever their text: empty names
and values, separators, escapes and characters outside ASCII. -/
theorem parse_serialize (pairs : List (String × String)) : parse (serialize pairs) = pairs := by
  unfold parse serialize
  cases pairs with
  | nil => rfl
  | cons p pairs =>
    set pieces := (p :: pairs).map fun p => encode p.1 ++ 0x3D :: encode p.2 with hpieces
    have hfree : ∀ piece ∈ pieces, (0x26 : UInt8) ∉ piece := by
      intro piece hpiece
      obtain ⟨q, -, rfl⟩ := List.mem_map.mp hpiece
      simp only [List.mem_append, List.mem_cons, not_or]
      exact ⟨notMem_encode (.inl rfl) q.1, by decide, notMem_encode (.inl rfl) q.2⟩
    -- every piece has its `=`
    have hnonempty : ∀ piece ∈ pieces, (!piece.isEmpty) = true := by
      intro piece hpiece
      obtain ⟨q, -, rfl⟩ := List.mem_map.mp hpiece
      simp
    rw [List.splitOn_intercalate _ hfree (by simp [hpieces]), List.filter_eq_self.mpr hnonempty,
      hpieces, List.map_map]
    conv_rhs => rw [← List.map_id (p :: pairs)]
    exact List.map_congr_left fun q _ => pair_written q

end AuthnKit.FormUrlencoded
