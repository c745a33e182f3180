import AuthnKit.Foundation.Text

/-!
# AuthnKit — base64

RFC 4648 over any alphabet: three bytes are four symbols, and the last one or two bytes are two or
three symbols whose unused bits are zero. `decodePadded` reads the form that is padded to four.

* **`sextets`**, **`octets`** — the regrouping of bits, without an alphabet.
* **`encode`**, **`decode`** — the same over an alphabet.
* **`decode_encode`** — what was encoded decodes.
* **`encode_decode`** — a text decodes only if it is the encoding of what it decodes to, so no two
  texts decode alike.
* **`decodePadded_encodePadded`**, **`encodePadded_of_decodePadded`** — the same of the padded form.
-/

namespace AuthnKit.Base64

/-! ## Bits

Three bytes are four symbols. Shorter groups at the end are filled with zero bits, and a decoder has
to refuse any other filling, or two texts would decode alike. -/

/-- The bits of a list of bytes, six at a time; the last group is filled with zeros. -/
def sextets : List UInt8 → List (Fin 64)
  | [] => []
  | [a] => [.ofNat 64 (a.toNat / 4), .ofNat 64 (a.toNat % 4 * 16)]
  | [a, b] =>
    [.ofNat 64 (a.toNat / 4), .ofNat 64 (a.toNat % 4 * 16 + b.toNat / 16),
      .ofNat 64 (b.toNat % 16 * 4)]
  | a :: b :: c :: rest =>
    .ofNat 64 (a.toNat / 4) :: .ofNat 64 (a.toNat % 4 * 16 + b.toNat / 16)
      :: .ofNat 64 (b.toNat % 16 * 4 + c.toNat / 64) :: .ofNat 64 c.toNat :: sextets rest

/-- The bits of a list of symbols, eight at a time, unless a group is too short for a byte or bits
that belong to none are set. -/
def octets : List (Fin 64) → Option (List UInt8)
  | [] => some []
  | [_] => none
  | [s, t] => if t.val % 16 = 0 then some [.ofNat (s.val * 4 + t.val / 16)] else none
  | [s, t, u] =>
    if u.val % 4 = 0 then
      some [.ofNat (s.val * 4 + t.val / 16), .ofNat (t.val % 16 * 16 + u.val / 4)]
    else none
  | s :: t :: u :: v :: rest => (octets rest).map fun bytes =>
    .ofNat (s.val * 4 + t.val / 16) :: .ofNat (t.val % 16 * 16 + u.val / 4)
      :: .ofNat (u.val % 4 * 64 + v.val) :: bytes

theorem byte_eq {n : ℕ} {a : UInt8} (h : n = a.toNat) : UInt8.ofNat n = a := by
  rw [h]
  exact UInt8.ofNat_toNat

theorem sextet_eq {n : ℕ} {s : Fin 64} (h : n % 64 = s.val) : Fin.ofNat 64 n = s :=
  Fin.ext h

/-- Regrouping the bits and back gives the bytes again. Induction on the groups of three bytes, with
the two shorter groups at the end as further cases. -/
theorem octets_sextets (bytes : List UInt8) : octets (sextets bytes) = some bytes := by
  induction bytes using sextets.induct with
  | case1 => rfl
  | case2 a =>
    have ha : a.toNat < 256 := a.toNat_lt
    simp only [sextets, octets, Fin.val_ofNat]
    rw [if_pos (by omega), byte_eq (a := a) (by omega)]
  | case3 a b =>
    have ha : a.toNat < 256 := a.toNat_lt
    have hb : b.toNat < 256 := b.toNat_lt
    simp only [sextets, octets, Fin.val_ofNat]
    rw [if_pos (by omega), byte_eq (a := a) (by omega), byte_eq (a := b) (by omega)]
  | case4 a b c rest ih =>
    have ha : a.toNat < 256 := a.toNat_lt
    have hb : b.toNat < 256 := b.toNat_lt
    have hc : c.toNat < 256 := c.toNat_lt
    simp only [sextets, octets, Fin.val_ofNat, ih, Option.map_some]
    rw [byte_eq (a := a) (by omega), byte_eq (a := b) (by omega), byte_eq (a := c) (by omega)]

/-- Symbols that make up bytes are the regrouped bits of these, so no other symbols make them up. -/
theorem sextets_octets {symbols : List (Fin 64)} {bytes : List UInt8}
    (h : octets symbols = some bytes) : sextets bytes = symbols := by
  induction symbols using octets.induct generalizing bytes with
  | case1 =>
    cases h
    rfl
  | case2 s => cases h
  | case3 s t ht =>
    simp only [octets, if_pos ht] at h
    obtain rfl := (Option.some.inj h).symm
    simp only [sextets, UInt8.toNat_ofNat']
    rw [sextet_eq (s := s) (by omega), sextet_eq (s := t) (by omega)]
  | case4 s t ht =>
    simp only [octets, if_neg ht] at h
    cases h
  | case5 s t u hu =>
    simp only [octets, if_pos hu] at h
    obtain rfl := (Option.some.inj h).symm
    simp only [sextets, UInt8.toNat_ofNat']
    rw [sextet_eq (s := s) (by omega), sextet_eq (s := t) (by omega),
      sextet_eq (s := u) (by omega)]
  | case6 s t u hu =>
    simp only [octets, if_neg hu] at h
    cases h
  | case7 s t u v rest ih =>
    simp only [octets, Option.map_eq_some_iff] at h
    obtain ⟨bytes', hrest, rfl⟩ := h
    simp only [sextets, UInt8.toNat_ofNat']
    rw [sextet_eq (s := s) (by omega), sextet_eq (s := t) (by omega),
      sextet_eq (s := u) (by omega), sextet_eq (s := v) (by omega), ih hrest]

/-! ## Alphabets

Which characters the symbols are written with is a parameter: different ones, so that each character
of a text stands for one symbol at most. -/

structure Alphabet where
  symbols : List Char
  length_eq : symbols.length = 64
  nodup : symbols.Nodup

namespace Alphabet

variable (A : Alphabet)

def symbol (n : Fin 64) : Char := A.symbols.get (n.cast A.length_eq.symm)

def value (c : Char) : Option (Fin 64) :=
  if h : A.symbols.idxOf c < 64 then some ⟨A.symbols.idxOf c, h⟩ else none

@[simp] theorem value_symbol (n : Fin 64) : A.value (A.symbol n) = some n := by
  have hidx : A.symbols.idxOf (A.symbol n) = n.val := A.nodup.idxOf_getElem n.val _
  unfold value
  rw [dif_pos (by omega)]
  exact congrArg some (Fin.ext hidx)

/-- A character that is read as a symbol is the one the symbol is written with. -/
theorem symbol_of_value {c : Char} {n : Fin 64} (h : A.value c = some n) : A.symbol n = c := by
  unfold value at h
  by_cases hidx : A.symbols.idxOf c < 64
  · rw [dif_pos hidx] at h
    obtain rfl := (Option.some.inj h).symm
    exact List.getElem_idxOf (by rw [A.length_eq]; exact hidx)
  · rw [dif_neg hidx] at h
    cases h

theorem mapM_value_map_symbol (l : List (Fin 64)) : (l.map A.symbol).mapM A.value = some l := by
  rw [List.mapM_map]
  induction l with
  | nil => rfl
  | cons n l ih =>
    rw [List.mapM_cons, ih, Function.comp_apply, value_symbol]
    rfl

/-- A text that is read as symbols is how these are written. -/
theorem map_symbol_of_mapM_value {cs : List Char} {l : List (Fin 64)}
    (h : cs.mapM A.value = some l) : l.map A.symbol = cs := by
  induction cs generalizing l with
  | nil =>
    cases h
    rfl
  | cons c cs ih =>
    rw [List.mapM_cons] at h
    cases hc : A.value c with
    | none =>
      rw [hc] at h
      cases h
    | some n =>
      cases hcs : cs.mapM A.value with
      | none =>
        rw [hc, hcs] at h
        cases h
      | some l' =>
        rw [hc, hcs] at h
        obtain rfl := (Option.some.inj h).symm
        rw [List.map_cons, A.symbol_of_value hc, ih hcs]

end Alphabet

def encode (A : Alphabet) (bytes : List UInt8) : String :=
  String.ofList ((sextets bytes).map A.symbol)

def decode (A : Alphabet) (text : String) : Option (List UInt8) :=
  (text.toList.mapM A.value).bind octets

/-- **What was encoded decodes**, to the bytes it was made of, in every alphabet. -/
theorem decode_encode (A : Alphabet) (bytes : List UInt8) : decode A (encode A bytes) = some bytes := by
  unfold decode encode
  rw [String.toList_ofList, A.mapM_value_map_symbol]
  exact octets_sextets bytes

/-- **Only encodings decode**: a text that decodes is the encoding of what it decodes to. Encoding
and decoding are therefore inverse, and a text has at most one reading. -/
theorem encode_decode (A : Alphabet) {text : String} {bytes : List UInt8}
    (h : decode A text = some bytes) : encode A bytes = text := by
  obtain ⟨l, hl, hbytes⟩ := Option.bind_eq_some_iff.mp h
  unfold encode
  rw [sextets_octets hbytes, A.map_symbol_of_mapM_value hl, String.ofList_toList]

def Alphabet.urlSafe : Alphabet where
  symbols := "ABCDEFGHIJKLMNOPQRSTUVWXYZabcdefghijklmnopqrstuvwxyz0123456789-_".toList
  length_eq := by decide
  nodup := by decide +kernel

/-- The alphabet of the padded form. -/
def Alphabet.standard : Alphabet where
  symbols := "ABCDEFGHIJKLMNOPQRSTUVWXYZabcdefghijklmnopqrstuvwxyz0123456789+/".toList
  length_eq := by decide
  nodup := by decide +kernel

/-! ## Padding

The padded form has a length divisible by four. Padding is no symbol, so it can be told apart from
the text in front of it. -/

/-- Padding to a multiple of four symbols. -/
def padding (length : ℕ) : String := String.ofList (List.replicate ((4 - length % 4) % 4) '=')

def encodePadded (A : Alphabet) (bytes : List UInt8) : String :=
  encode A bytes ++ padding (encode A bytes).toList.length

/-- The padding is there, and no longer than it has to be. -/
def decodePadded (A : Alphabet) (text : String) : Option (List UInt8) :=
  let body := Text.trimEndMatches '=' text
  if text.toList.length = body.toList.length + (4 - body.toList.length % 4) % 4 then decode A body
  else none

theorem mem_symbols_of_mem_encode {A : Alphabet} {bytes : List UInt8} {c : Char}
    (h : c ∈ (encode A bytes).toList) : c ∈ A.symbols := by
  rw [encode, String.toList_ofList] at h
  obtain ⟨n, -, rfl⟩ := List.mem_map.mp h
  exact List.get_mem A.symbols _

/-- **What was encoded with padding decodes**, where the padding is not one of the alphabet's
symbols: it is taken off, and the rest is the unpadded encoding. -/
theorem decodePadded_encodePadded {A : Alphabet} (h : '=' ∉ A.symbols) (bytes : List UInt8) :
    decodePadded A (encodePadded A bytes) = some bytes := by
  have hbody : Text.trimEndMatches '=' (encodePadded A bytes) = encode A bytes :=
    Text.trimEndMatches_append (fun hc => h (mem_symbols_of_mem_encode hc)) _
  unfold decodePadded
  simp only
  rw [hbody, if_pos, decode_encode]
  unfold encodePadded padding
  simp

/-- **Only padded encodings decode**: with the padding that belongs to them, neither more nor less.
-/
theorem encodePadded_of_decodePadded {A : Alphabet} {text : String} {bytes : List UInt8}
    (h : decodePadded A text = some bytes) : encodePadded A bytes = text := by
  unfold decodePadded at h
  simp only at h
  obtain ⟨n, htext⟩ := Text.exists_trimEndMatches '=' text
  split at h
  next hlen =>
    have hbody := encode_decode A h
    have hlength : text.toList.length = (Text.trimEndMatches '=' text).toList.length + n := by
      conv_lhs => rw [htext]
      simp
    have hn : n = (4 - (Text.trimEndMatches '=' text).toList.length % 4) % 4 := by omega
    unfold encodePadded padding
    rw [hbody, ← hn]
    exact htext.symm
  next => exact absurd h (by simp)

example : decodePadded .standard "aWQ6cw==" = some "id:s".toUTF8.data.toList
    ∧ decodePadded .standard "aWQ6cw" = none ∧ decodePadded .standard "aWQ6cw===" = none := by
  decide +kernel

example : encode .urlSafe [0x14, 0xFB, 0x9C, 0x03, 0xFF] = "FPucA_8" := by decide

end AuthnKit.Base64
