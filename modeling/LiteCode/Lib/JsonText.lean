import Mathlib.Algebra.Group.Int.Defs
import LiteCode.Lib.Json

/-!
# Texts that denote JSON values

Programs that print JSON by hand paste texts of values into the texts of arrays and objects.
`Denotes e o` says what a strict reader makes of such a text `e`, wherever it is pasted: the value
`v` when `o = some v`, and a failure, whatever follows, when `o = none`. The lemmas say that the
pasting is compositional:

* `IntLiteral`: the integers, of any size, with a sign or without; what the reader makes of one is
  an integer if it has 64 bits (`IntLiteral.number_eq`);
* `denotes_decimal`, `denotes_null`: the texts of numbers and of `null`;
* `Denotes.arr`, `Denotes.object`: an array (an object) denotes the array of what its elements
  denote, and is a failure as soon as one of them is; `Denotes.obj`: an object with plain keys;
* `parse_of_denotes`: a whole text.
-/

namespace LiteCode

/-! ## Decimal digits -/

/-- A number below ten is one digit. -/
theorem decimal_of_lt {n : Nat} (h : n < 10) : decimal n = [UInt8.ofNat (48 + n)] := by
  rw [decimal, Nat.toDigits_of_lt_base h]
  simp [Nat.toNat_digitChar_of_lt_ten h]

/-- The last digit of a larger number. -/
theorem decimal_of_le {n : Nat} (h : 10 ≤ n) :
    decimal n = decimal (n / 10) ++ [UInt8.ofNat (48 + n % 10)] := by
  have hd : n % 10 < 10 := Nat.mod_lt _ (by decide)
  rw [decimal, Nat.toDigits_of_base_le (by decide) h, List.map_append]
  simp [decimal, Nat.toNat_digitChar_of_lt_ten hd]

theorem toNat_digit {d : Nat} (h : d < 10) : (UInt8.ofNat (48 + d)).toNat = 48 + d := by
  rw [UInt8.toNat_ofNat']
  omega

theorem isDigit_digit {d : Nat} (h : d < 10) : Json.isDigit (UInt8.ofNat (48 + d)) = true := by
  have := toNat_digit h
  simp only [Json.isDigit, Bool.and_eq_true, decide_eq_true_eq, UInt8.le_iff_toNat_le, this]
  exact ⟨by simp, by simpa using by omega⟩

/-- The digits of a number are digits. -/
theorem isDigit_of_mem_decimal {n : Nat} : ∀ b ∈ decimal n, Json.isDigit b = true := by
  induction n using Nat.strongRecOn with
  | ind n ih =>
    intro b hb
    by_cases h : n < 10
    · rw [decimal_of_lt h, List.mem_singleton] at hb
      exact hb ▸ isDigit_digit h
    · rw [decimal_of_le (by omega), List.mem_append, List.mem_singleton] at hb
      rcases hb with hb | rfl
      · exact ih (n / 10) (by omega) b hb
      · exact isDigit_digit (Nat.mod_lt _ (by decide))

theorem decimal_ne_nil (n : Nat) : decimal n ≠ [] := by
  simp [decimal, Nat.toDigits_ne_nil]

/-- Reading the digits of a number back. -/
theorem digitsVal_decimal (n : Nat) : Json.digitsVal (decimal n) = n := by
  induction n using Nat.strongRecOn with
  | ind n ih =>
    by_cases h : n < 10
    · rw [decimal_of_lt h, Json.digitsVal, List.foldl_cons, List.foldl_nil, toNat_digit h]
      omega
    · have hd : n % 10 < 10 := Nat.mod_lt _ (by decide)
      have := ih (n / 10) (by omega)
      rw [Json.digitsVal] at this
      rw [decimal_of_le (by omega), Json.digitsVal, List.foldl_append, this, List.foldl_cons,
        List.foldl_nil, toNat_digit hd]
      omega

/-- Different numbers have different digits. -/
theorem decimal_injective : Function.Injective decimal := fun n m h => by
  rw [← digitsVal_decimal n, h, digitsVal_decimal]

/-- Different integers have different texts. -/
theorem decimalInt_injective : Function.Injective decimalInt := by
  -- a digit is not a minus sign
  have hminus : ∀ n m : Nat, decimal n ≠ bytes "-" ++ decimal (m + 1) := by
    intro n m h
    have := isDigit_of_mem_decimal (n := n) 0x2D (h ▸ List.mem_cons_self)
    revert this
    decide
  rintro (n | n) (m | m) h
  · exact congrArg Int.ofNat (decimal_injective h)
  · exact absurd h (hminus n m)
  · exact absurd h.symm (hminus m n)
  · have := decimal_injective (List.append_cancel_left h)
    exact congrArg Int.negSucc (Nat.succ.inj this)

/-- Only the number zero starts with the digit zero. -/
theorem head_decimal {n : Nat} {b : UInt8} {r : Bytes} (h : decimal n = b :: r) (hn : n ≠ 0) :
    b ≠ 0x30 := by
  -- the first digit of `n` is that of `n / 10`, down to a single digit that is not zero
  induction n using Nat.strongRecOn generalizing r with
  | ind n ih =>
    by_cases hlt : n < 10
    · rw [decimal_of_lt hlt, List.cons.injEq] at h
      intro hb
      have := toNat_digit hlt
      rw [h.1, hb] at this
      simp at this
      omega
    · rw [decimal_of_le (by omega)] at h
      cases hq : decimal (n / 10) with
      | nil => exact absurd hq (decimal_ne_nil _)
      | cons c q =>
        rw [hq, List.cons_append, List.cons.injEq] at h
        rw [h.1] at hq
        exact ih (n / 10) (by omega) hq (by omega)

namespace Json

/-! ## Pasted texts -/

/-- What may follow a value inside an array or an object, or at the end of the text. -/
def Follow : Bytes → Prop
  | [] => True
  | b :: _ => b = 0x2C ∨ b = 0x5D ∨ b = 0x7D

/-- The first byte of a text: it is not white space, and it does not close a bracket. -/
def Opens : Bytes → Prop
  | [] => False
  | b :: _ => isSpace b = false ∧ b ≠ 0x5D ∧ b ≠ 0x7D

/-- What the reader makes of a text with a result `o`: with more fuel than `size` the value, with
    less the value or a failure, and with any fuel a failure if there is no result. -/
def Yields {α : Type} (read : Nat → Bytes → Option (α × Bytes)) (size : Nat) (i rest : Bytes) :
    Option α → Prop
  | some v => ∀ n, read n i = some (v, rest) ∨ n ≤ size ∧ read n i = none
  | none => ∀ n, read n i = none

/-- The text `e` denotes `v` if `o = some v`, and is not the text of a value if `o = none`. -/
structure Denotes (e : Bytes) (o : Option Json) : Prop where
  opens : Opens e
  yields : ∀ rest, Follow rest → Yields value e.length (e ++ rest) rest o

theorem Follow.comma (i : Bytes) : Follow (0x2C :: i) := .inl rfl

theorem Follow.bracket (i : Bytes) : Follow (0x5D :: i) := .inr (.inl rfl)

theorem Follow.brace (i : Bytes) : Follow (0x7D :: i) := .inr (.inr rfl)

/-- A reader that needs one unit of fuel and then always gives the same result. -/
theorem Yields.of_succ {α : Type} {read : Nat → Bytes → Option (α × Bytes)} {size : Nat}
    {i rest : Bytes} {o : Option α} (h₀ : read 0 i = none)
    (h : ∀ n, read (n + 1) i = o.map fun v => (v, rest)) : Yields read size i rest o := by
  cases o with
  | none =>
    intro n
    cases n with
    | zero => exact h₀
    | succ n => exact h n
  | some v =>
    intro n
    cases n with
    | zero => exact .inr ⟨Nat.zero_le _, h₀⟩
    | succ n => exact .inl (h n)

/-- A byte that is neither white space nor, for a number, part of what stands before it. -/
theorem Follow.not_digit {b : UInt8} {i : Bytes} (h : Follow (b :: i)) :
    isDigit b = false ∧ b ≠ 0x2E ∧ b ≠ 0x65 ∧ b ≠ 0x45 ∧ isSpace b = false := by
  rcases h with rfl | rfl | rfl <;> decide

/-- A number ends where something else follows. -/
theorem Follow.takeWhile {i : Bytes} (h : Follow i) : i.takeWhile isDigit = [] := by
  cases i with
  | nil => rfl
  | cons b i => simp [h.not_digit.1]

theorem Follow.dropWhile {i : Bytes} (h : Follow i) : i.dropWhile isDigit = i := by
  cases i with
  | nil => rfl
  | cons b i => simp [h.not_digit.1]

/-- There is no fraction. -/
theorem Follow.scanFrac {i : Bytes} (h : Follow i) : scanFrac i = some (none, i) := by
  cases i with
  | nil => rfl
  | cons b i => simp [Json.scanFrac, h.not_digit.2.1]

/-- There is no exponent. -/
theorem Follow.scanExp {i : Bytes} (h : Follow i) : scanExp i = some (none, i) := by
  cases i with
  | nil => rfl
  | cons b i => simp [Json.scanExp, h.not_digit.2.2.1, h.not_digit.2.2.2.1]

theorem skipSpace_cons {b : UInt8} (i : Bytes) (h : isSpace b = false) :
    skipSpace (b :: i) = b :: i := by
  simp [skipSpace, h]

/-! ## Integers -/

theorem isSpace_of_isDigit {b : UInt8} (h : isDigit b = true) : isSpace b = false := by
  simp only [isDigit, Bool.and_eq_true, decide_eq_true_eq] at h
  simp only [isSpace, Bool.or_eq_false_iff, beq_eq_false_iff_ne, ne_eq]
  refine ⟨⟨⟨?_, ?_⟩, ?_⟩, ?_⟩ <;> grind

/-- A byte that starts a number starts no other value. -/
theorem value_digit {b : UInt8} {i : Bytes} (n : Nat) (hb : isDigit b = true) :
    value (n + 1) (b :: i) = (scanNumber (b :: i)).map fun p => (.num p.1, p.2) := by
  have hne : b ≠ 0x7B ∧ b ≠ 0x5B ∧ b ≠ 0x22 ∧ b ≠ 0x74 ∧ b ≠ 0x66 ∧ b ≠ 0x6E := by
    simp only [isDigit, Bool.and_eq_true, decide_eq_true_eq] at hb
    refine ⟨?_, ?_, ?_, ?_, ?_, ?_⟩ <;> grind
  obtain ⟨h₁, h₂, h₃, h₄, h₅, h₆⟩ := hne
  rw [value, skipSpace_cons i (isSpace_of_isDigit hb)]
  simp [h₁, h₂, h₃, h₄, h₅, h₆, hb]

/-- An integer: an optional minus, and digits without a zero in front. -/
structure IntLiteral where
  neg : Bool
  digits : Bytes
  digits_ne_nil : digits ≠ []
  isDigit_digits : ∀ b ∈ digits, isDigit b = true
  canonical : digits.head? = some 0x30 → digits = [0x30]

namespace IntLiteral

def text (l : IntLiteral) : Bytes := if l.neg then 0x2D :: l.digits else l.digits

/-- The integer that is written. -/
def value (l : IntLiteral) : Int :=
  if l.neg then -(digitsVal l.digits : Int) else digitsVal l.digits

/-- What the reader makes of the digits and the sign. -/
def number (l : IntLiteral) : Option JsonNum := mkNumber l.neg l.digits none none

/-- The integers that the reader keeps: the signed and the unsigned ones of 64 bits. -/
def Fits (l : IntLiteral) : Prop := -2 ^ 63 ≤ l.value ∧ l.value < 2 ^ 64

instance (l : IntLiteral) : Decidable l.Fits := inferInstanceAs (Decidable (_ ∧ _))

variable (l : IntLiteral)

/-- An integer is kept if it fits, and otherwise becomes a float, or no number at all. -/
theorem number_eq : l.number =
    if l.Fits then some (if l.neg then .integer l.value else .unsigned l.value.toNat)
    else if Decimal.overflows (digitsVal l.digits) 0 then none
    else some (.float ⟨l.neg, digitsVal l.digits, 0⟩) := by
  obtain ⟨neg, digits, -, -, -⟩ := l
  cases neg with
  | true =>
    simp only [number, mkNumber, Fits, value, if_pos]
    have hfits : -2 ^ 63 ≤ -(digitsVal digits : Int) ∧ -(digitsVal digits : Int) < 2 ^ 64 ↔
        digitsVal digits ≤ 2 ^ 63 := by omega
    by_cases h : digitsVal digits ≤ 2 ^ 63
    · rw [if_pos h, if_pos (hfits.2 h)]
    · rw [if_neg h, if_neg (mt hfits.1 h)]
  | false =>
    simp only [number, mkNumber, Fits, value, Bool.false_eq_true, if_false]
    have hfits : -2 ^ 63 ≤ (digitsVal digits : Int) ∧ (digitsVal digits : Int) < 2 ^ 64 ↔
        digitsVal digits < 2 ^ 64 := by omega
    by_cases h : digitsVal digits < 2 ^ 64
    · rw [if_pos h, if_pos (hfits.2 h), Int.toNat_natCast]
    · rw [if_neg h, if_neg (mt hfits.1 h)]

/-- The digits of a literal are scanned. -/
theorem scanInt_digits {rest : Bytes} (h : Follow rest) :
    scanInt (l.digits ++ rest) = some (l.digits, rest) := by
  obtain ⟨b, ds, hd⟩ := List.exists_cons_of_ne_nil l.digits_ne_nil
  have hall : ∀ c ∈ b :: ds, isDigit c = true := hd ▸ l.isDigit_digits
  have hcanonical := l.canonical
  rw [hd] at hcanonical ⊢
  by_cases hzero : b = 0x30
  · subst hzero
    rw [(List.cons.inj (hcanonical rfl)).2]
    rfl
  · have hds : ∀ c ∈ ds, isDigit c = true := fun c hc => hall c (List.mem_cons_of_mem _ hc)
    rw [List.cons_append, scanInt, if_neg hzero, if_pos (hall b List.mem_cons_self),
      List.takeWhile_append_of_pos hds, List.dropWhile_append_of_pos hds, h.takeWhile,
      h.dropWhile, List.append_nil]

/-- A literal is scanned as its number. -/
theorem scanNumber_text {rest : Bytes} (h : Follow rest) :
    scanNumber (l.text ++ rest) = l.number.map fun m => (m, rest) := by
  have hint := l.scanInt_digits h
  unfold text number
  cases l.neg with
  | true =>
    rw [if_pos rfl, List.cons_append, scanNumber]
    simp only [hint, Option.bind_some, h.scanFrac, h.scanExp]
  | false =>
    obtain ⟨b, ds, hd⟩ := List.exists_cons_of_ne_nil l.digits_ne_nil
    have hb : isDigit b = true := l.isDigit_digits b (hd ▸ List.mem_cons_self)
    have hminus : b ≠ 0x2D := by rintro rfl; cases hb
    rw [hd, List.cons_append] at hint
    rw [if_neg Bool.false_ne_true, hd, List.cons_append, scanNumber]
    · simp only [hint, Option.bind_some, h.scanFrac, h.scanExp]
    · rintro r ⟨⟩
      exact hminus rfl

/-- The first byte is a minus or a digit. -/
theorem text_eq_cons : ∃ b i, l.text = b :: i ∧ (b = 0x2D ∨ isDigit b = true) := by
  unfold text
  cases l.neg with
  | true => exact ⟨0x2D, l.digits, rfl, .inl rfl⟩
  | false =>
    obtain ⟨b, ds, hd⟩ := List.exists_cons_of_ne_nil l.digits_ne_nil
    exact ⟨b, ds, hd, .inr (l.isDigit_digits b (hd ▸ List.mem_cons_self))⟩

/-- The text of an integer, as a value. -/
theorem denotes : Denotes l.text (l.number.map .num) := by
  obtain ⟨b, i, htext, hb⟩ := l.text_eq_cons
  refine ⟨?_, fun rest hrest => .of_succ rfl fun n => ?_⟩
  · rw [htext]
    rcases hb with rfl | hb
    · exact ⟨rfl, by decide, by decide⟩
    · refine ⟨isSpace_of_isDigit hb, ?_, ?_⟩ <;> rintro rfl <;> cases hb
  · have hread : Json.value (n + 1) (l.text ++ rest) =
        (scanNumber (l.text ++ rest)).map fun p => (.num p.1, p.2) := by
      rw [htext, List.cons_append]
      rcases hb with rfl | hb
      · rw [Json.value, skipSpace_cons _ rfl]
        simp
      · exact value_digit n hb
    rw [hread, l.scanNumber_text hrest]
    cases l.number <;> rfl

end IntLiteral

/-! ## Numbers and null -/

/-- The number that a reader makes of the digits of `n`. -/
def ofNat? (n : Nat) : Option Json := (mkNumber false (decimal n) none none).map .num

/-- A number of 64 bits is read as it is. -/
theorem ofNat?_of_lt {n : Nat} (h : n < 2 ^ 64) : ofNat? n = some (.num (.unsigned n)) := by
  simp only [ofNat?, mkNumber, digitsVal_decimal, Bool.false_eq_true, if_false, if_pos h,
    Option.map_some]

/-- From 64 bits on, a number without fraction is not an integer any more. -/
theorem ofNat?_of_le {n : Nat} {v : Json} (h : 2 ^ 64 ≤ n) (hv : ofNat? n = some v) :
    v = .num (.float ⟨false, n, 0⟩) := by
  simp only [ofNat?, mkNumber, digitsVal_decimal, Bool.false_eq_true, if_false,
    if_neg (Nat.not_lt.2 h)] at hv
  split at hv
  · cases hv
  · cases hv
    rfl

/-- The digits of a number. -/
def IntLiteral.ofNat (n : Nat) : IntLiteral where
  neg := false
  digits := decimal n
  digits_ne_nil := decimal_ne_nil n
  isDigit_digits := isDigit_of_mem_decimal
  canonical := by
    intro h
    obtain ⟨r, hr⟩ := List.head?_eq_some_iff.1 h
    by_cases hn : n = 0
    · subst hn
      exact decimal_of_lt (by decide)
    · exact absurd rfl (head_decimal hr hn)

/-- The decimal digits of a number denote it. -/
theorem denotes_decimal (n : Nat) : Denotes (decimal n) (ofNat? n) := (IntLiteral.ofNat n).denotes

theorem denotes_null : Denotes (bytes "null") (some .null) :=
  ⟨⟨by decide, by decide, by decide⟩, fun _ _ => .of_succ rfl fun _ => rfl⟩

/-! ## Strings -/

/-- The text of a string literal with the quotes. -/
def strText (e : Bytes) : Bytes := 0x22 :: e ++ [0x22]

/-- The text of a string literal denotes what the scanner of strings reads. -/
theorem denotes_string {e : Bytes} {o : Option Bytes}
    (h : ∀ rest, scanString Utf8.start (e ++ 0x22 :: rest) = o.map fun s => (s, rest)) :
    Denotes (strText e) (o.map .str) := by
  refine ⟨by simp [strText, Opens]; decide, fun rest _ => .of_succ rfl fun m => ?_⟩
  have := h rest
  rw [strText, List.cons_append, List.cons_append, List.append_assoc, List.singleton_append, value,
    skipSpace_cons _ (by decide)]
  simp only [this]
  cases o <;> rfl

/-- A byte that stands for itself in a string literal: printable ASCII but the quote and the
    backslash. -/
def isPlain (b : UInt8) : Bool := 0x20 ≤ b && b < 0x80 && b != 0x22 && b != 0x5C

/-- A plain byte is ASCII. -/
theorem lt_of_isPlain {b : UInt8} (h : isPlain b = true) : b < 0x80 := by
  simp only [isPlain, Bool.and_eq_true, decide_eq_true_eq] at h
  exact h.1.1.2

/-- Every byte of the text stands for itself. -/
def Plain (k : Bytes) : Prop := ∀ b ∈ k, isPlain b = true

instance (k : Bytes) : Decidable (Plain k) := List.decidableBAll _ k

theorem Plain.append {k k' : Bytes} (h : Plain k) (h' : Plain k') : Plain (k ++ k') := fun b hb =>
  (List.mem_append.1 hb).elim (h b) (h' b)

/-- Digits are plain. -/
theorem plain_decimal (n : Nat) : Plain (decimal n) := by
  intro b hb
  have := isDigit_of_mem_decimal b hb
  simp only [isDigit, Bool.and_eq_true, decide_eq_true_eq] at this
  simp only [isPlain, Bool.and_eq_true, decide_eq_true_eq, bne_iff_ne, ne_eq]
  grind

/-- So is a sign. -/
theorem plain_decimalInt (n : Int) : Plain (decimalInt n) := by
  cases n with
  | ofNat n => exact plain_decimal n
  | negSucc n => exact .append (by decide) (plain_decimal _)

/-- A string ends at a quote. -/
theorem scanString_quote (i : Bytes) : scanString Utf8.start (0x22 :: i) = some ([], i) := by
  unfold scanString
  exact if_pos ⟨rfl, rfl⟩

/-- A plain text is scanned as it is. -/
theorem scanString_plain {k : Bytes} (h : Plain k) (i : Bytes) :
    scanString Utf8.start (k ++ i) =
      (scanString Utf8.start i).map fun p => (k ++ p.1, p.2) := by
  induction k with
  | nil => simp
  | cons b k ih =>
    have hb := h b List.mem_cons_self
    simp only [isPlain, Bool.and_eq_true, decide_eq_true_eq, bne_iff_ne, ne_eq] at hb
    obtain ⟨⟨⟨hlo, hhi⟩, hq⟩, hs⟩ := hb
    have hlo : ¬b < 0x20 := by grind
    rw [List.cons_append, scanString.eq_def]
    simp only [hq, hs, and_false, if_false, hlo, Utf8.step_start_of_lt hhi,
      ih fun c hc => h c (List.mem_cons_of_mem _ hc)]
    simp [Function.comp_def]

/-! ## Arrays and objects -/

/-- Texts separated by commas. -/
def commaSep : List Bytes → Bytes
  | [] => []
  | [e] => e
  | e :: e' :: l => e ++ 0x2C :: commaSep (e' :: l)

/-- The text of an array. -/
def arrText (l : List Bytes) : Bytes := 0x5B :: commaSep l ++ [0x5D]

/-- The text of a member of an object. -/
def memberText (k e : Bytes) : Bytes := 0x22 :: k ++ 0x22 :: 0x3A :: e

/-- The text of an object. -/
def objText (l : List (Bytes × Bytes)) : Bytes :=
  0x7B :: commaSep (l.map fun p => memberText p.1 p.2) ++ [0x7D]

/-- A reader of items separated by commas up to a closing byte, where the item of `g : γ` pastes
    the text of a value: what `elements` and `members` have in common. -/
structure ItemReader {γ β : Type} (read : Nat → Bytes → Option (List β × Bytes)) (close : UInt8)
    (text : γ → Bytes → Bytes) (mk : γ → Json → β) : Prop where
  zero : ∀ i, read 0 i = none
  comma : ∀ n g e v i, value n (e ++ 0x2C :: i) = some (v, 0x2C :: i) →
    read (n + 1) (text g e ++ 0x2C :: i) = (read n i).map fun p => (mk g v :: p.1, p.2)
  last : ∀ n g e v i, value n (e ++ close :: i) = some (v, close :: i) →
    read (n + 1) (text g e ++ close :: i) = some ([mk g v], i)
  fail : ∀ n g e i, value n (e ++ i) = none → read (n + 1) (text g e ++ i) = none
  size : ∀ g e, e.length ≤ (text g e).length
  follow : ∀ i, Follow (close :: i)

/-- A text to be pasted, with what it denotes. -/
structure Item (γ : Type) where
  label : γ
  text : Bytes
  result : Option Json

/-- The items are read one by one, and the reading fails at the first one without a value. -/
theorem ItemReader.yields {γ β : Type} {read : Nat → Bytes → Option (List β × Bytes)}
    {close : UInt8} {text : γ → Bytes → Bytes} {mk : γ → Json → β}
    (R : ItemReader read close text mk) (l : List (Item γ)) (hne : l ≠ [])
    (h : ∀ p ∈ l, Denotes p.text p.result) (rest : Bytes) :
    Yields read (commaSep (l.map fun p => text p.label p.text)).length.succ
      (commaSep (l.map fun p => text p.label p.text) ++ close :: rest) rest
      (l.mapM fun p => p.result.map (mk p.label)) := by
  induction l with
  | nil => exact absurd rfl hne
  | cons p l ih =>
    obtain ⟨g, e, o⟩ := p
    have he : Denotes e o := h ⟨g, e, o⟩ List.mem_cons_self
    have hsize := R.size g e
    -- The last item is followed by the closing bracket, every other one by a comma.
    cases l with
    | nil =>
      have hv := he.yields (close :: rest) (R.follow rest)
      simp only [List.map_cons, List.map_nil, commaSep, List.mapM_cons, List.mapM_nil]
      cases o with
      | none =>
        intro n
        cases n with
        | zero => exact R.zero _
        | succ n => exact R.fail n g e _ (hv n)
      | some v =>
        intro n
        cases n with
        | zero => exact .inr ⟨Nat.zero_le _, R.zero _⟩
        | succ n =>
          rcases hv n with hv | ⟨hn, hv⟩
          · exact .inl (R.last n g e v rest hv)
          · exact .inr ⟨by omega, R.fail n g e _ hv⟩
    | cons p' l =>
      have ih := ih (by simp) fun q hq => h q (List.mem_cons_of_mem _ hq)
      generalize htail : commaSep ((p' :: l).map fun p => text p.label p.text) = tail at ih
      have hv := he.yields (0x2C :: (tail ++ close :: rest)) (.comma _)
      have htext : commaSep ((⟨g, e, o⟩ :: p' :: l).map fun p : Item γ => text p.label p.text) =
          text g e ++ 0x2C :: tail := by
        rw [← htail]
        rfl
      rw [htext, List.mapM_cons, List.append_assoc, List.cons_append]
      cases o with
      | none =>
        intro n
        cases n with
        | zero => exact R.zero _
        | succ n => exact R.fail n g e _ (hv n)
      | some v =>
        cases hvs : (p' :: l).mapM fun p => p.result.map (mk p.label) with
        | none =>
          rw [hvs] at ih
          intro n
          cases n with
          | zero => exact R.zero _
          | succ n =>
            rcases hv n with hv | ⟨-, hv⟩
            · rw [R.comma n g e v _ hv, ih n]
              rfl
            · exact R.fail n g e _ hv
        | some vs =>
          rw [hvs] at ih
          intro n
          cases n with
          | zero => exact .inr ⟨Nat.zero_le _, R.zero _⟩
          | succ n =>
            -- The fuel ends in the item or in the rest, and both are shorter than the text.
            simp only [List.length_append, List.length_cons]
            rcases hv n with hv | ⟨hn, hv⟩
            · rcases ih n with ih | ⟨hn, ih⟩
              · exact .inl (by rw [R.comma n g e v _ hv, ih]; rfl)
              · exact .inr ⟨by omega, by rw [R.comma n g e v _ hv, ih]; rfl⟩
            · exact .inr ⟨by omega, R.fail n g e _ hv⟩

/-- `elements` reads the items of an array. -/
theorem elements_reader :
    ItemReader elements 0x5D (fun (_ : Unit) e => e) (fun _ v => v) where
  zero _ := rfl
  comma n _ e v i h := by
    simp [elements, h, skipSpace_cons i (show isSpace 0x2C = false by decide)]
  last n _ e v i h := by
    simp [elements, h, skipSpace_cons i (show isSpace 0x5D = false by decide)]
  fail n _ e i h := by simp [elements, h]
  size _ _ := Nat.le_refl _
  follow := .bracket

/-- A plain text in quotes is scanned as it is. -/
theorem Plain.scanString {k : Bytes} (h : Plain k) (rest : Bytes) :
    scanString Utf8.start (k ++ 0x22 :: rest) = some (k, rest) := by
  rw [scanString_plain h, scanString_quote]
  simp

/-- The text of a key between its quotes, and the key that is read. -/
structure Key where
  text : Bytes
  value : Bytes
  scan : ∀ rest, scanString Utf8.start (text ++ 0x22 :: rest) = some (value, rest)

/-- A plain key stands for itself. -/
def Key.plain {k : Bytes} (h : Plain k) : Key := ⟨k, k, h.scanString⟩

/-- The members of an object. -/
theorem members_key (k : Key) (n : Nat) (e i : Bytes) :
    members (n + 1) (memberText k.text e ++ i) = (value n (e ++ i)).bind fun (v, i) =>
      match skipSpace i with
      | 0x2C :: i => (members n i).map fun p => ((k.value, v) :: p.1, p.2)
      | 0x7D :: i => some ([(k.value, v)], i)
      | _ => none := by
  have hq : ∀ i, skipSpace (0x22 :: i) = 0x22 :: i := fun i => skipSpace_cons i (by decide)
  have hc : ∀ i, skipSpace (0x3A :: i) = 0x3A :: i := fun i => skipSpace_cons i (by decide)
  have hk := k.scan (0x3A :: (e ++ i))
  simp only [members, memberText, List.cons_append, List.append_assoc, hq, hk, Option.bind_some]
  rewrite [hc]
  rfl

/-- `members` reads the items of an object. -/
theorem members_reader : ItemReader members 0x7D (fun (k : Key) e => memberText k.text e)
    (fun k v => (k.value, v)) where
  zero _ := rfl
  comma n k e v i h := by
    rw [members_key, h]
    simp [skipSpace_cons i (show isSpace 0x2C = false by decide)]
  last n k e v i h := by
    rw [members_key, h]
    simp [skipSpace_cons i (show isSpace 0x7D = false by decide)]
  fail n k e i h := by
    rw [members_key, h]
    rfl
  size k e := by simp [memberText]; omega
  follow := .brace

/-- There is no blank where a value opens. -/
theorem Opens.skipSpace {i : Bytes} (h : Opens i) : skipSpace i = i := by
  cases i with
  | nil => rfl
  | cons b i => exact skipSpace_cons i h.1

theorem Opens.append {i : Bytes} (h : Opens i) (i' : Bytes) : Opens (i ++ i') := by
  cases i with
  | nil => exact absurd h id
  | cons b i => exact h

/-- A list opens with its first item. -/
theorem Opens.commaSep {e : Bytes} (h : Opens e) (l : List Bytes) (i : Bytes) :
    Opens (commaSep (e :: l) ++ i) := by
  cases l with
  | nil => exact h.append i
  | cons e' l =>
    rw [Json.commaSep, List.append_assoc]
    exact h.append _

/-- A reader of values that opens with one byte and goes on as another reader. -/
theorem Yields.wrap {α : Type} {read : Nat → Bytes → Option (α × Bytes)} {size size' : Nat}
    {i i' rest : Bytes} {o : Option α} {f : α → Json} (h : Yields read size i' rest o)
    (hv : ∀ n, value (n + 1) i = (read n i').map fun p => (f p.1, p.2)) (hs : size < size') :
    Yields value size' i rest (o.map f) := by
  cases o with
  | none =>
    intro n
    cases n with
    | zero => rfl
    | succ n => rw [hv, h n]; rfl
  | some v =>
    intro n
    cases n with
    | zero => exact .inr ⟨Nat.zero_le _, rfl⟩
    | succ n =>
      rcases h n with h | ⟨hn, h⟩
      · exact .inl (by rw [hv, h]; rfl)
      · exact .inr ⟨by omega, by rw [hv, h]; rfl⟩

/-- Behind a bracket come the elements. -/
theorem value_bracket {i : Bytes} (h : Opens i) (n : Nat) :
    value (n + 1) (0x5B :: i) = (elements n i).map fun p => (.arr p.1, p.2) := by
  rw [value, skipSpace_cons i (by decide)]
  simp only [h.skipSpace]
  cases i with
  | nil => exact absurd h id
  | cons b i => simp [h.2.1]

/-- Behind a brace come the members. -/
theorem value_brace {i : Bytes} (h : Opens i) (n : Nat) :
    value (n + 1) (0x7B :: i) = (members n i).map fun p => (.obj p.1, p.2) := by
  rw [value, skipSpace_cons i (by decide)]
  simp only [h.skipSpace]
  cases i with
  | nil => exact absurd h id
  | cons b i => simp [h.2.2]

/-- The text of an array denotes the array of what its elements denote. -/
theorem Denotes.arr (l : List (Item Unit)) (h : ∀ p ∈ l, Denotes p.text p.result) :
    Denotes (arrText (l.map (·.text))) ((l.mapM Item.result).map .arr) := by
  refine ⟨⟨by decide, by decide, by decide⟩, fun rest _ => ?_⟩
  cases l with
  | nil => exact .of_succ rfl fun n => rfl
  | cons p l =>
    have hy := elements_reader.yields (p :: l) (by simp) h rest
    have ho := (h p List.mem_cons_self).opens.commaSep (l.map (·.text)) (0x5D :: rest)
    simp only [Option.map_id'] at hy
    rw [arrText, List.append_assoc, List.cons_append, List.singleton_append]
    refine hy.wrap (value_bracket ho) ?_
    simp

/-- The text of an object denotes the object of what its members denote. -/
theorem Denotes.object (l : List (Item Key)) (h : ∀ p ∈ l, Denotes p.text p.result) :
    Denotes (objText (l.map fun p => (p.label.text, p.text)))
      ((l.mapM fun p : Item Key => p.result.map fun v => (p.label.value, v)).map .obj) := by
  refine ⟨⟨by decide, by decide, by decide⟩, fun rest _ => ?_⟩
  rw [objText, List.map_map]
  cases l with
  | nil => exact .of_succ rfl fun n => rfl
  | cons p l =>
    have hy := members_reader.yields (p :: l) (by simp) h rest
    have ho : Opens (memberText p.label.text p.text) := ⟨by decide, by decide, by decide⟩
    have ho := ho.commaSep (l.map fun p => memberText p.label.text p.text) (0x7D :: rest)
    rw [List.append_assoc, List.cons_append, List.singleton_append]
    refine hy.wrap (value_brace ho) ?_
    simp [Function.comp_def]

/-- The text of an object with plain keys denotes the object of what its members denote. -/
theorem Denotes.obj (l : List (Item {k // Plain k})) (h : ∀ p ∈ l, Denotes p.text p.result) :
    Denotes (objText (l.map fun p => (p.label.1, p.text)))
      ((l.mapM fun p : Item _ => p.result.map fun v => (p.label.1, v)).map .obj) := by
  have ho := Denotes.object (l.map fun p => ⟨.plain p.label.2, p.text, p.result⟩) fun q hq => by
    obtain ⟨p, hp, rfl⟩ := List.mem_map.1 hq
    exact h p hp
  rw [List.map_map, List.mapM_map] at ho
  exact ho

/-! ## Whole texts -/

/-- Reading a text that denotes `o` and stands alone. -/
theorem parse_of_denotes {e : Bytes} {o : Option Json} (h : Denotes e o)
    (hbom : skipBom e = e) : parse e = o := by
  have hy := h.yields [] trivial
  rw [List.append_nil] at hy
  rw [parse, hbom]
  cases o with
  | none =>
    rw [hy]
  | some v =>
    rcases hy (e.length + 1) with hy | ⟨hn, -⟩
    · rw [hy]
      rfl
    · omega

end Json

end LiteCode
