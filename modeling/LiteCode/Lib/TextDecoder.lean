import LiteCode.Lib.Utf8

/-!
# Decoding a stream of UTF-8

A text is a list of characters. It travels as UTF-8 (`utf8`) and is used as UTF-16 (`utf16`), the
strings of JavaScript. A streaming decoder gets the bytes in chunks, which may end inside of a
character, and gives the units of each chunk.

* `TextDecoder`: a decoder, with its law: the units of the chunks of a text are those of the text,
  however it was cut. As `TextDecoder` of a browser, it may drop a byte order mark in front;
* `TextDecoder.pending`: the decoder that keeps the bytes of a character that is not complete;
* `mem_of_mem_utf16`: an ASCII unit is a character of the text.
-/

namespace LiteCode

/-- A string of UTF-16 code units. -/
abbrev Units := List UInt16

namespace Utf16

/-- The UTF-16 form of a code point. -/
def encode (c : Nat) : Units :=
  if c < 0x10000 then [UInt16.ofNat c]
  else [UInt16.ofNat (0xD800 + (c - 0x10000) / 1024), UInt16.ofNat (0xDC00 + (c - 0x10000) % 1024)]

end Utf16

/-- The UTF-8 form of a text. -/
def utf8 (t : List Char) : Bytes := t.flatMap fun c => Utf8.encode c.toNat

/-- The UTF-16 form of a text. -/
def utf16 (t : List Char) : Units := t.flatMap fun c => Utf16.encode c.toNat

/-- A literal of JavaScript. -/
def units (s : String) : Units := utf16 s.toList

theorem utf8_append (s t : List Char) : utf8 (s ++ t) = utf8 s ++ utf8 t := List.flatMap_append

theorem utf16_append (s t : List Char) : utf16 (s ++ t) = utf16 s ++ utf16 t := List.flatMap_append

theorem toNat_lt (c : Char) : c.toNat < 0x110000 := by
  have := c.valid
  simp only [UInt32.isValidChar, Nat.isValidChar] at this
  change c.val.toNat < 0x110000
  omega

/-- The byte order mark. -/
def byteOrderMark : Char := Char.ofNat 0xFEFF

/-- The units of each chunk, along the states of a decoder. -/
def decodeChunks {σ : Type} (decode : σ → Bytes → σ × Units) : σ → List Bytes → List Units
  | _, [] => []
  | s, chunk :: chunks => (decode s chunk).2 :: decodeChunks decode (decode s chunk).1 chunks

/-- A streaming decoder. -/
structure TextDecoder where
  State : Type
  start : State
  /-- The units of a chunk. -/
  decode : State → Bytes → State × Units
  decode_text : ∀ (t : List Char) (chunks : List Bytes), t.head? ≠ some byteOrderMark →
    chunks.flatten = utf8 t → (decodeChunks decode start chunks).flatten = utf16 t

namespace TextDecoder

/-! ## A decoder -/

/-- The code point of the bytes of a character, once they are complete. -/
def codePoint : List Nat → Option Nat
  | [a] => if a < 0x80 then some a else none
  | [a, b] => if a < 0xE0 then some ((a - 0xC0) * 64 + (b - 0x80)) else none
  | [a, b, c] =>
    if a < 0xF0 then some ((a - 0xE0) * 4096 + (b - 0x80) * 64 + (c - 0x80)) else none
  | [a, b, c, d] => some ((a - 0xF0) * 262144 + (b - 0x80) * 4096 + (c - 0x80) * 64 + (d - 0x80))
  | _ => none

/-- One more byte, after the bytes of a character that is not complete. -/
def feed (p : Bytes) (b : UInt8) : Bytes × Units :=
  match codePoint ((p ++ [b]).map UInt8.toNat) with
  | some c => ([], Utf16.encode c)
  | none => (p ++ [b], [])

/-- The bytes of a chunk. -/
def feedAll : Bytes → Bytes → Bytes × Units
  | p, [] => (p, [])
  | p, b :: l => ((feedAll (feed p b).1 l).1, (feed p b).2 ++ (feedAll (feed p b).1 l).2)

/-- A text may be fed in two parts. -/
theorem feedAll_append (p l l' : Bytes) : feedAll p (l ++ l') =
    ((feedAll (feedAll p l).1 l').1, (feedAll p l).2 ++ (feedAll (feedAll p l).1 l').2) := by
  induction l generalizing p with
  | nil => rfl
  | cons b l ih => simp only [List.cons_append, feedAll, ih, List.append_assoc]

/-- The cuts do not matter. -/
theorem flatten_decodeChunks (p : Bytes) (chunks : List Bytes) :
    (decodeChunks feedAll p chunks).flatten = (feedAll p chunks.flatten).2 := by
  induction chunks generalizing p with
  | nil => rfl
  | cons chunk chunks ih =>
    rw [decodeChunks, List.flatten_cons, List.flatten_cons, ih, feedAll_append]

/-- A code point that is not complete stays pending. -/
theorem feed_none {p : Bytes} {b : UInt8} (h : codePoint ((p ++ [b]).map UInt8.toNat) = none) :
    feed p b = (p ++ [b], []) := by
  rw [feed, h]

/-- A complete one is decoded. -/
theorem feed_some {p : Bytes} {b : UInt8} {c : Nat}
    (h : codePoint ((p ++ [b]).map UInt8.toNat) = some c) : feed p b = ([], Utf16.encode c) := by
  rw [feed, h]

/-- The bytes of a character, of which all but the last one wait. -/
theorem feedAll_two {a b : UInt8} {c : Nat} (h₁ : codePoint [a.toNat] = none)
    (h₂ : codePoint [a.toNat, b.toNat] = some c) : feedAll [] [a, b] = ([], Utf16.encode c) := by
  have hfeed₁ : feed [] a = ([a], []) := feed_none h₁
  have hfeed₂ : feed [a] b = ([], Utf16.encode c) := feed_some h₂
  simp [feedAll, hfeed₁, hfeed₂]

/-- A code point of three bytes. -/
theorem feedAll_three {a b b' : UInt8} {c : Nat} (h₁ : codePoint [a.toNat] = none)
    (h₂ : codePoint [a.toNat, b.toNat] = none)
    (h₃ : codePoint [a.toNat, b.toNat, b'.toNat] = some c) :
    feedAll [] [a, b, b'] = ([], Utf16.encode c) := by
  have hfeed₁ : feed [] a = ([a], []) := feed_none h₁
  have hfeed₂ : feed [a] b = ([a, b], []) := feed_none h₂
  have hfeed₃ : feed [a, b] b' = ([], Utf16.encode c) := feed_some h₃
  simp [feedAll, hfeed₁, hfeed₂, hfeed₃]

/-- A code point of four bytes. -/
theorem feedAll_four {a b b' b'' : UInt8} {c : Nat} (h₁ : codePoint [a.toNat] = none)
    (h₂ : codePoint [a.toNat, b.toNat] = none)
    (h₃ : codePoint [a.toNat, b.toNat, b'.toNat] = none)
    (h₄ : codePoint [a.toNat, b.toNat, b'.toNat, b''.toNat] = some c) :
    feedAll [] [a, b, b', b''] = ([], Utf16.encode c) := by
  have hfeed₁ : feed [] a = ([a], []) := feed_none h₁
  have hfeed₂ : feed [a] b = ([a, b], []) := feed_none h₂
  have hfeed₃ : feed [a, b] b' = ([a, b, b'], []) := feed_none h₃
  have hfeed₄ : feed [a, b, b'] b'' = ([], Utf16.encode c) := feed_some h₄
  simp [feedAll, hfeed₁, hfeed₂, hfeed₃, hfeed₄]

/-- The bytes of a character give its units. -/
theorem feedAll_encode {c : Nat} (hc : c < 0x110000) :
    feedAll [] (Utf8.encode c) = ([], Utf16.encode c) := by
  have hbyte : ∀ {n : Nat}, n < 256 → (UInt8.ofNat n).toNat = n := fun h =>
    UInt8.toNat_ofNat_of_lt' h
  rw [Utf8.encode]
  -- One, two, three or four bytes.
  split_ifs with h₁ h₂ h₃
  · have hcode : codePoint (([] ++ [UInt8.ofNat c]).map UInt8.toNat) = some c := by
      simp [hbyte (show c < 256 by omega), codePoint, h₁]
    simp [feedAll, feed_some hcode]
  · have ha := hbyte (show 0xC0 + c / 64 < 256 by omega)
    have hb := hbyte (show 0x80 + c % 64 < 256 by omega)
    refine feedAll_two ?_ ?_ <;> rw [ha]
    · exact if_neg (by omega)
    · rw [hb, codePoint, if_pos (by omega)]
      exact congrArg some (by omega)
  · have ha := hbyte (show 0xE0 + c / 4096 < 256 by omega)
    have hb := hbyte (show 0x80 + c / 64 % 64 < 256 by omega)
    have hb' := hbyte (show 0x80 + c % 64 < 256 by omega)
    refine feedAll_three ?_ ?_ ?_ <;> rw [ha]
    · exact if_neg (by omega)
    · exact if_neg (by omega)
    · rw [hb, hb', codePoint, if_pos (by omega)]
      exact congrArg some (by omega)
  · have ha := hbyte (show 0xF0 + c / 262144 < 256 by omega)
    have hb := hbyte (show 0x80 + c / 4096 % 64 < 256 by omega)
    have hb' := hbyte (show 0x80 + c / 64 % 64 < 256 by omega)
    have hb'' := hbyte (show 0x80 + c % 64 < 256 by omega)
    refine feedAll_four ?_ ?_ ?_ ?_ <;> rw [ha]
    · exact if_neg (by omega)
    · exact if_neg (by omega)
    · exact if_neg (by omega)
    · rw [hb, hb', hb'', codePoint]
      exact congrArg some (by omega)

/-- A text in UTF-8 is decoded. -/
theorem feedAll_utf8 (t : List Char) : feedAll [] (utf8 t) = ([], utf16 t) := by
  induction t with
  | nil => rfl
  | cons c t ih =>
    have hcons : utf8 (c :: t) = Utf8.encode c.toNat ++ utf8 t := rfl
    rw [hcons, feedAll_append, feedAll_encode (toNat_lt c), ih]
    rfl

/-- The decoder that keeps the bytes of a character that is not complete. -/
def pending : TextDecoder where
  State := Bytes
  start := []
  decode := feedAll
  decode_text t chunks _ h := by rw [flatten_decodeChunks, h, feedAll_utf8]

end TextDecoder

/-! ## ASCII characters -/

/-- The units of other characters are no ASCII units. -/
theorem eq_of_mem_encode {c n : Nat} (hc : c < 0x110000) (hn : n < 0x80)
    (h : UInt16.ofNat n ∈ Utf16.encode c) : n = c := by
  have hunit : ∀ {m : Nat}, m < 0x10000 → UInt16.ofNat n = UInt16.ofNat m → n = m := by
    intro m hm heq
    have htoNat := congrArg UInt16.toNat heq
    rwa [UInt16.toNat_ofNat_of_lt' (show n < 0x10000 by omega), UInt16.toNat_ofNat_of_lt' hm]
      at htoNat
  rw [Utf16.encode] at h
  split_ifs at h with hbmp
  · exact hunit hbmp (List.mem_singleton.1 h)
  · rcases List.mem_cons.1 h with h | h
    · have := hunit (by omega) h
      omega
    · have := hunit (by omega) (List.mem_singleton.1 h)
      omega

/-- An ASCII character of a text in UTF-16. -/
theorem mem_of_mem_utf16 {t : List Char} {a : Char} (ha : a.toNat < 0x80)
    (h : UInt16.ofNat a.toNat ∈ utf16 t) : a ∈ t := by
  obtain ⟨c, hc, h⟩ := List.mem_flatMap.1 h
  rwa [Char.toNat_inj.1 (eq_of_mem_encode (toNat_lt c) ha h)]

end LiteCode
