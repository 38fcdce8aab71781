import Mathlib.Algebra.Group.Int.Defs
import Mathlib.Data.List.DropRight
import LiteCode.Lib.JsonText

/-!
# Numbers in texts

`std::stoi` reads a number at the front of a text: blanks, a sign, digits. It throws when there is
no digit, or when the number is no `int`; what follows the digits is left.

* `stoiRest`, `stollRest`: the number, and what is left;
* `Spelling`: what these functions take for a number; `integerRest_eq_some_iff`: they read one
  spelling, up to its last digit;
* `stoi_decimal`: the text of `std::to_string` is read back.
-/

namespace LiteCode

/-- `std::isspace`. -/
def isSpace (b : UInt8) : Bool := b == 0x20 || (0x09 ≤ b && b ≤ 0x0D)

/-- The numbers of an `int`. -/
def IsInt32 (n : Int) : Prop := -2 ^ 31 ≤ n ∧ n < 2 ^ 31

instance (n : Int) : Decidable (IsInt32 n) := inferInstanceAs (Decidable (_ ∧ _))

/-- Whether there is a minus sign, and what follows the sign. -/
def takeSign : Bytes → Bool × Bytes
  | 0x2D :: s => (true, s)
  | 0x2B :: s => (false, s)
  | s => (false, s)

/-- `std::stoi` with its position: the number and the rest of the text, `none` if it throws. -/
def stoiRest (s : Bytes) : Option (Int × Bytes) :=
  let (neg, s) := takeSign (s.dropWhile isSpace)
  let digits := s.takeWhile Json.isDigit
  let n : Int := if neg then -(Json.digitsVal digits : Int) else Json.digitsVal digits
  if !digits.isEmpty && IsInt32 n then some (n, s.dropWhile Json.isDigit) else none

/-- `std::stoi`. -/
def stoi (s : Bytes) : Option Int := (stoiRest s).map Prod.fst

/-- The numbers of a `long long`. -/
def IsInt64 (n : Int) : Prop := -2 ^ 63 ≤ n ∧ n < 2 ^ 63

instance (n : Int) : Decidable (IsInt64 n) := inferInstanceAs (Decidable (_ ∧ _))

/-- A number of any size at the front of a text, and the rest of the text. -/
def integerRest (s : Bytes) : Option (Int × Bytes) :=
  let (neg, s) := takeSign (s.dropWhile isSpace)
  let digits := s.takeWhile Json.isDigit
  if digits.isEmpty then none
  else some (if neg then -(Json.digitsVal digits : Int) else Json.digitsVal digits,
    s.dropWhile Json.isDigit)

/-- `std::stoll` with its position. -/
def stollRest (s : Bytes) : Option (Int × Bytes) := (integerRest s).filter fun p => IsInt64 p.1

theorem stoiRest_eq (s : Bytes) :
    stoiRest s = (integerRest s).filter fun p => IsInt32 p.1 := by
  simp only [stoiRest, integerRest]
  split_ifs <;> simp_all [Option.filter]

/-! ## Spellings -/

/-- A spelling of an integer: blanks, a sign, digits. -/
structure Spelling where
  blanks : Bytes
  sign : Bytes
  digits : Bytes
  isSpace_blanks : ∀ b ∈ blanks, isSpace b = true
  sign_mem : sign = [] ∨ sign = [0x2B] ∨ sign = [0x2D]
  digits_ne_nil : digits ≠ []
  isDigit_digits : ∀ b ∈ digits, Json.isDigit b = true

namespace Spelling

/-- The text of a spelling. -/
def text (p : Spelling) : Bytes := p.blanks ++ (p.sign ++ p.digits)

/-- The number that is spelled. -/
def value (p : Spelling) : Int :=
  if p.sign = [0x2D] then -(Json.digitsVal p.digits : Int) else Json.digitsVal p.digits

end Spelling

theorem not_isSpace_of_isDigit {b : UInt8} (hb : Json.isDigit b = true) : isSpace b = false := by
  simp only [Json.isDigit, Bool.and_eq_true, decide_eq_true_eq, UInt8.le_iff_toNat_le] at hb
  simp only [isSpace, Bool.or_eq_false_iff, Bool.and_eq_false_iff, decide_eq_false_iff_not,
    beq_eq_false_iff_ne, UInt8.le_iff_toNat_le, ne_eq, ← UInt8.toNat_inj]
  simp only [UInt8.reduceToNat] at hb ⊢
  omega

/-- The sign is taken off, if there is one. -/
theorem takeSign_cases (s : Bytes) :
    ∃ sign, (sign = [] ∨ sign = [0x2B] ∨ sign = [0x2D]) ∧ s = sign ++ (takeSign s).2 ∧
      (takeSign s).1 = decide (sign = [0x2D]) := by
  unfold takeSign
  split
  · exact ⟨[0x2D], by decide, rfl, rfl⟩
  · exact ⟨[0x2B], by decide, rfl, rfl⟩
  · exact ⟨[], .inl rfl, rfl, rfl⟩

theorem takeSign_append {sign s : Bytes} (hsign : sign = [] ∨ sign = [0x2B] ∨ sign = [0x2D])
    (hs : ∀ b ∈ s.head?, Json.isDigit b = true) :
    takeSign (sign ++ s) = (decide (sign = [0x2D]), s) := by
  rcases hsign with rfl | rfl | rfl
  · rw [List.nil_append, takeSign]
    · rfl
    · rintro t rfl
      cases hs _ rfl
    · rintro t rfl
      cases hs _ rfl
  · rfl
  · rfl

/-- What follows the digits does not start with one. -/
def NoDigit (rest : Bytes) : Prop := ∀ b ∈ rest.head?, Json.isDigit b = false

theorem noDigit_nil : NoDigit [] := nofun

theorem noDigit_dropWhile (s : Bytes) : NoDigit (s.dropWhile Json.isDigit) := by
  intro b hb
  have hne : s.dropWhile Json.isDigit ≠ [] := by
    intro h
    rw [h] at hb
    cases hb
  have hfirst := List.head_dropWhile_not Json.isDigit hne
  rw [List.head?_eq_some_head hne] at hb
  cases hb
  exact hfirst

theorem dropWhile_spelling {blanks s : Bytes} (hblanks : ∀ b ∈ blanks, isSpace b = true)
    (hs : ∀ b ∈ s.head?, isSpace b = false) : (blanks ++ s).dropWhile isSpace = s := by
  rw [List.dropWhile_append_of_pos hblanks]
  cases s with
  | nil => rfl
  | cons b s => exact List.dropWhile_cons_of_neg (by simp [hs b rfl])

theorem integerRest_dropWhile (s : Bytes) : integerRest (s.dropWhile isSpace) = integerRest s := by
  rw [integerRest, List.dropWhile_idempotent, ← integerRest]

section Digits

variable {digits rest : Bytes}

theorem takeWhile_digits (hd : ∀ b ∈ digits, Json.isDigit b = true) (hr : NoDigit rest) :
    (digits ++ rest).takeWhile Json.isDigit = digits := by
  rw [List.takeWhile_append_of_pos hd]
  cases rest with
  | nil => exact List.append_nil _
  | cons b rest => rw [List.takeWhile_cons_of_neg (by simp [hr b rfl]), List.append_nil]

theorem dropWhile_digits (hd : ∀ b ∈ digits, Json.isDigit b = true) (hr : NoDigit rest) :
    (digits ++ rest).dropWhile Json.isDigit = rest := by
  rw [List.dropWhile_append_of_pos hd]
  cases rest with
  | nil => rfl
  | cons b rest => exact List.dropWhile_cons_of_neg (by simp [hr b rfl])

end Digits

/-- A spelling is read, up to its last digit. -/
theorem Spelling.integerRest_append (p : Spelling) {rest : Bytes} (h : NoDigit rest) :
    integerRest (p.text ++ rest) = some (p.value, rest) := by
  obtain ⟨d, ds, hd⟩ := List.exists_cons_of_ne_nil p.digits_ne_nil
  have hdigit : Json.isDigit d = true := p.isDigit_digits d (hd ▸ List.mem_cons_self)
  have hspace : (p.text ++ rest).dropWhile isSpace = p.sign ++ (p.digits ++ rest) := by
    rw [Spelling.text, List.append_assoc, List.append_assoc]
    refine dropWhile_spelling p.isSpace_blanks fun b hb => ?_
    rcases p.sign_mem with hs | hs | hs <;> rw [hs, hd] at hb <;> cases hb
    · exact not_isSpace_of_isDigit hdigit
    · rfl
    · rfl
  have hsign : takeSign (p.sign ++ (p.digits ++ rest)) =
      (decide (p.sign = [0x2D]), p.digits ++ rest) := by
    refine takeSign_append p.sign_mem fun b hb => ?_
    rw [hd] at hb
    cases hb
    exact hdigit
  have htake : (p.digits ++ rest).takeWhile Json.isDigit = p.digits :=
    takeWhile_digits p.isDigit_digits h
  have hdrop : (p.digits ++ rest).dropWhile Json.isDigit = rest :=
    dropWhile_digits p.isDigit_digits h
  rw [integerRest, hspace]
  simp only [hsign, htake, hdrop]
  rw [if_neg (by simpa using p.digits_ne_nil)]
  simp [Spelling.value]

/-- Digits are read as their number. -/
theorem stoi_digits {digits : Bytes} (hne : digits ≠ [])
    (hd : ∀ b ∈ digits, Json.isDigit b = true) (hmax : Json.digitsVal digits < 2 ^ 31) :
    stoi digits = some (Json.digitsVal digits : Int) := by
  have h := (⟨[], [], digits, fun _ h => absurd h List.not_mem_nil, .inl rfl, hne, hd⟩ :
    Spelling).integerRest_append noDigit_nil
  rw [Spelling.text, List.nil_append, List.nil_append, List.append_nil] at h
  have hrange : IsInt32 (Json.digitsVal digits : Int) := by
    unfold IsInt32
    omega
  rw [stoi, stoiRest_eq, h, Spelling.value, if_neg (List.cons_ne_nil _ _).symm, Option.filter_some,
    if_pos (decide_eq_true hrange)]
  rfl

/-- What is read is a spelling. -/
theorem exists_spelling {s rest : Bytes} {n : Int} (h : integerRest s = some (n, rest)) :
    ∃ p : Spelling, s = p.text ++ rest ∧ n = p.value ∧ NoDigit rest := by
  obtain ⟨sign, hmem, hs, hneg⟩ := takeSign_cases (s.dropWhile isSpace)
  simp only [integerRest, hneg, decide_eq_true_eq] at h
  split at h
  · cases h
  next hne =>
  cases h
  refine ⟨⟨s.takeWhile isSpace, sign, (takeSign (s.dropWhile isSpace)).2.takeWhile Json.isDigit,
    fun b => List.mem_takeWhile_imp, hmem, by simpa using hne, fun b => List.mem_takeWhile_imp⟩,
    ?_, ?_, noDigit_dropWhile _⟩
  · rw [Spelling.text, List.append_assoc, List.append_assoc, List.takeWhile_append_dropWhile, ← hs,
      List.takeWhile_append_dropWhile]
  · rfl

/-- A text starts with at most one spelling that no digit follows, which is what is read. -/
theorem integerRest_eq_some_iff {s rest : Bytes} {n : Int} : integerRest s = some (n, rest) ↔
    ∃ p : Spelling, s = p.text ++ rest ∧ n = p.value ∧ NoDigit rest := by
  refine ⟨exists_spelling, ?_⟩
  rintro ⟨p, rfl, rfl, h⟩
  exact p.integerRest_append h

/-- The last byte of a spelling is a digit. -/
theorem Spelling.any_getLast? (p : Spelling) : p.text.getLast?.any isSpace = false := by
  obtain ⟨d, hd⟩ := Option.ne_none_iff_exists'.1 (mt List.getLast?_eq_none_iff.1 p.digits_ne_nil)
  have hdigit := p.isDigit_digits d (List.mem_of_getLast? hd)
  rw [Spelling.text, List.getLast?_append, List.getLast?_append, hd, Option.some_or, Option.some_or,
    Option.any_some]
  exact not_isSpace_of_isDigit hdigit

/-- A digit is neither a blank nor a sign. -/
theorem takeSign_digit {b : UInt8} {s : Bytes} (hb : Json.isDigit b = true) :
    takeSign ((b :: s).dropWhile isSpace) = (false, b :: s) := by
  have hspace : isSpace b = false := not_isSpace_of_isDigit hb
  rw [List.dropWhile_cons_of_neg (by simp [hspace]), takeSign]
  · rintro t ⟨⟩
    cases hb
  · rintro t ⟨⟩
    cases hb

/-- The text of a number is read back, to its end. -/
theorem stoiRest_decimal {n : Nat} (h : n < 2 ^ 31) :
    stoiRest (decimal n) = some ((n : Int), []) := by
  obtain ⟨b, s, hs⟩ := List.exists_cons_of_ne_nil (decimal_ne_nil n)
  have hall : ∀ x ∈ decimal n, Json.isDigit x = true := isDigit_of_mem_decimal
  have htake : (decimal n).takeWhile Json.isDigit = decimal n := List.takeWhile_eq_self_iff.2 hall
  have hdrop : (decimal n).dropWhile Json.isDigit = [] := List.dropWhile_eq_nil_iff.2 hall
  have hsign : takeSign ((decimal n).dropWhile isSpace) = (false, decimal n) := by
    rw [hs]
    exact takeSign_digit (hall b (by simp [hs]))
  have hrange : IsInt32 (n : Int) := ⟨by omega, by omega⟩
  simp [stoiRest, hsign, htake, hdrop, digitsVal_decimal, decimal_ne_nil, hrange]

theorem stoi_decimal {n : Nat} (h : n < 2 ^ 31) : stoi (decimal n) = some (n : Int) := by
  rw [stoi, stoiRest_decimal h, Option.map_some]

end LiteCode
