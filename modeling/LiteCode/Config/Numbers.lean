import Mathlib.Data.List.DropRight
import LiteCode.Lib.Stoi

/-!
# Numbers in the configuration

The two functions that read the numbers of the configuration: `getenv_int_or` of `src/config.h`,
for any integer type, and `parse_size_string` of `src/logger.h`. Each takes a fallback for a text
that it cannot read.

Both read a number at the front of the text. The first one leaves what follows, and narrows the
number to its type; the second one leaves a fraction, and multiplies without a check.

* `intendedInt`, `intendedSize`: the whole text is read, or the fallback is taken;
* `ReadsExactly`, `SizeExact`: the texts for which the functions do this;
* `numbers_exact_iff`: they do it for these texts, and for no others.
-/

namespace LiteCode.Config

/-! ## The environment -/

/-- `getenv_opt`: an empty variable counts as missing. -/
def getenvOpt (v : Option Bytes) : Option Bytes := v.filter (· ≠ [])

/-- An integer type: the number of its bits, and whether it has a sign. -/
structure IntType where
  bits : Nat
  signed : Bool
  bits_pos : 0 < bits
  deriving DecidableEq, Repr

namespace IntType

/-- `int`. -/
def int : IntType := ⟨32, true, by decide⟩

/-- `std::uint16_t`. -/
def uint16 : IntType := ⟨16, false, by decide⟩

/-- `std::uintmax_t`. -/
def uintmax : IntType := ⟨64, false, by decide⟩

/-- The least value. -/
def least (T : IntType) : Int := if T.signed then -2 ^ (T.bits - 1) else 0

/-- The numbers of the type. -/
def Represents (T : IntType) (n : Int) : Prop := T.least ≤ n ∧ n < T.least + 2 ^ T.bits

instance (T : IntType) (n : Int) : Decidable (T.Represents n) :=
  inferInstanceAs (Decidable (_ ∧ _))

/-- `static_cast`: modulo `2 ^ bits`. -/
def narrow (T : IntType) (n : Int) : Int := T.least + (n - T.least) % 2 ^ T.bits

end IntType

/-- `getenv_int_or`, for the value of the variable. -/
def getenvIntOr (T : IntType) (v : Option Bytes) (fallback : Int) : Int :=
  match getenvOpt v with
  | none => fallback
  | some text =>
    match stollRest text with
    | some (parsed, _) => T.narrow parsed
    | none => fallback

/-! ## Sizes -/

/-- `std::isspace` at both ends. -/
def trim (s : Bytes) : Bytes := (s.dropWhile isSpace).rdropWhile isSpace

/-- `std::tolower`. -/
def toLower (b : UInt8) : UInt8 := if 0x41 ≤ b ∧ b ≤ 0x5A then b + 0x20 else b

/-- What a suffix multiplies by. -/
def unitFactor (suffix : Bytes) : Option Nat :=
  let suffix := suffix.map toLower
  if suffix = [] ∨ suffix = bytes "b" then some 1
  else if suffix = bytes "k" ∨ suffix = bytes "kb" then some 1024
  else if suffix = bytes "m" ∨ suffix = bytes "mb" then some (1024 * 1024)
  else if suffix = bytes "g" ∨ suffix = bytes "gb" then some (1024 * 1024 * 1024)
  else if suffix = bytes "kib" then some 1024
  else if suffix = bytes "mib" then some (1024 * 1024)
  else if suffix = bytes "gib" then some (1024 * 1024 * 1024)
  else none

/-- A digit or a point. -/
def isNumeric (b : UInt8) : Bool := Json.isDigit b || b == 0x2E

/-- `std::stoull` of digits and points: the digits in front of the first point. -/
def stoull (s : Bytes) : Option Nat :=
  let digits := s.takeWhile Json.isDigit
  if digits.isEmpty ∨ 2 ^ 64 ≤ Json.digitsVal digits then none else some (Json.digitsVal digits)

/-- `parse_size_string`. -/
def parseSizeString (s : Bytes) (fallback : Nat) : Nat :=
  let s := trim s
  if s.isEmpty then fallback
  else
    let number := s.takeWhile isNumeric
    if number.isEmpty then fallback
    else
      match stoull number with
      | none => fallback
      | some base =>
        match unitFactor (s.dropWhile isNumeric) with
        | some factor => base * factor % 2 ^ 64
        | none => fallback

/-! ## What is meant -/

/-- The number that the trimmed text spells, if the type has it. -/
def wholeInt (T : IntType) (text : Bytes) : Option Int :=
  match integerRest (trim text) with
  | some (n, []) => if T.Represents n then some n else none
  | _ => none

/-- What is meant for the value of the variable. -/
def intendedInt (T : IntType) (v : Option Bytes) (fallback : Int) : Int :=
  (v.bind (wholeInt T)).getD fallback

/-- The number times the unit of the trimmed text, if it fits. -/
def wholeSize (s : Bytes) : Option Nat :=
  match integerRest (trim s) with
  | some (n, unit) =>
    match unitFactor unit with
    | some factor =>
      if IntType.uintmax.Represents (n * factor) then some (n * factor).toNat else none
    | none => none
  | none => none

/-- What is meant for a size. -/
def intendedSize (s : Bytes) (fallback : Nat) : Nat := (wholeSize s).getD fallback

/-- A number at the front is a `long long` only where it is all of the text, and of the type. -/
def ReadsExactly (T : IntType) (v : Option Bytes) : Prop :=
  ∀ text ∈ v, ∀ n rest, integerRest text = some (n, rest) →
    (IsInt64 n ↔ (∀ b ∈ rest, isSpace b = true) ∧ T.Represents n)

/-- A number that a unit follows, maybe after a fraction: without a sign it has no fraction and the
    product fits, or the number itself does not; with a sign, the product does not fit. -/
def SizeExact (s : Bytes) : Prop :=
  ∀ n rest factor, integerRest (trim s) = some (n, rest) →
    unitFactor (rest.dropWhile isNumeric) = some factor →
      if (trim s).head?.any Json.isDigit then
        n < 2 ^ 64 → rest.takeWhile isNumeric = [] ∧ IntType.uintmax.Represents (n * factor)
      else rest.takeWhile isNumeric = [] → ¬IntType.uintmax.Represents (n * factor)

variable {T : IntType} {v : Option Bytes} {s rest : Bytes} {n m : Int}

/-- Two readings are the same if they are so for every fallback. -/
theorem forall_getD_eq_iff {α : Type} {P : α → Prop} {r r' : Option α}
    (hP : ∀ a, ∃ b, P b ∧ b ≠ a) : (∀ b, P b → r.getD b = r'.getD b) ↔ r = r' := by
  constructor
  · intro h
    cases r with
    | none =>
      cases r' with
      | none => rfl
      | some a =>
        obtain ⟨b, hb, hne⟩ := hP a
        exact absurd (h b hb) hne
    | some a =>
      obtain ⟨b, hb, hne⟩ := hP a
      cases r' with
      | none => exact absurd (h b hb).symm hne
      | some a' => exact congrArg some (h b hb)
  · rintro rfl b -
    rfl

/-! ## Integers -/

theorem narrow_of_represents (h : T.Represents n) : T.narrow n = n := by
  rw [IntType.narrow, Int.emod_eq_of_lt (by have := h.1; omega) (by have := h.2; omega)]
  omega

/-- A type has a number that is not the given one. -/
theorem exists_represents_ne (T : IntType) (n : Int) : ∃ m, T.Represents m ∧ m ≠ n := by
  have htwo : (2 : Int) ≤ 2 ^ T.bits := by
    have hpow : 2 ^ 1 ≤ 2 ^ T.bits := Nat.pow_le_pow_right (by decide) T.bits_pos
    exact_mod_cast hpow
  by_cases h : n = T.least
  · exact ⟨T.least + 1, ⟨by omega, by omega⟩, by omega⟩
  · exact ⟨T.least, ⟨Int.le_refl _, by omega⟩, Ne.symm h⟩

/-- The number of the trimmed text is the one in front of blanks. -/
theorem integerRest_trim_iff : integerRest (trim s) = some (n, []) ↔
    ∃ rest, integerRest s = some (n, rest) ∧ ∀ b ∈ rest, isSpace b = true := by
  rw [← integerRest_dropWhile s, trim]
  generalize s.dropWhile isSpace = t
  constructor
  · intro h
    obtain ⟨p, hp, hn, -⟩ := integerRest_eq_some_iff.1 h
    have hblank : ∀ b ∈ t.rtakeWhile isSpace, isSpace b = true := fun b => List.mem_rtakeWhile_imp
    refine ⟨t.rtakeWhile isSpace, integerRest_eq_some_iff.2 ⟨p, ?_, hn, fun b hb => ?_⟩, hblank⟩
    · rw [List.append_nil] at hp
      rw [← hp, List.rdropWhile_append_rtakeWhile]
    · rw [← Bool.not_eq_true]
      intro hdigit
      have hspace := hblank b (List.mem_of_mem_head? hb)
      rw [not_isSpace_of_isDigit hdigit] at hspace
      cases hspace
  · rintro ⟨rest, h, hblank⟩
    obtain ⟨p, rfl, hn, -⟩ := integerRest_eq_some_iff.1 h
    refine integerRest_eq_some_iff.2 ⟨p, ?_, hn, noDigit_nil⟩
    have hback : (p.text ++ rest).rdropWhile isSpace = p.text.rdropWhile isSpace := by
      rw [List.rdropWhile, List.reverse_append,
        List.dropWhile_append_of_pos fun b hb => hblank b (List.mem_reverse.1 hb), List.rdropWhile]
    rw [hback, List.append_nil, List.rdropWhile_eq_self_iff]
    intro hne hspace
    have hlast := p.any_getLast?
    rw [List.getLast?_eq_some_getLast hne, Option.any_some, hspace] at hlast
    cases hlast

theorem wholeInt_eq_some_iff : wholeInt T s = some m ↔
    integerRest (trim s) = some (m, []) ∧ T.Represents m := by
  unfold wholeInt
  split
  · next n h =>
    rw [h]
    split_ifs with hn
    · constructor
      · rintro ⟨⟩
        exact ⟨rfl, hn⟩
      · rintro ⟨⟨⟩, -⟩
        rfl
    · refine iff_of_false nofun ?_
      rintro ⟨⟨⟩, hm⟩
      exact hn hm
  · next hnot => exact iff_of_false nofun fun h => hnot m h.1

theorem getenvIntOr_eq (T : IntType) (v : Option Bytes) (fallback : Int) :
    getenvIntOr T v fallback =
      (v.bind fun text => (stollRest text).map fun p => T.narrow p.1).getD fallback := by
  rw [getenvIntOr]
  cases v with
  | none => rfl
  | some text =>
    by_cases hempty : text = []
    · subst hempty
      rfl
    · rw [getenvOpt, Option.filter_some, decide_eq_true hempty, if_pos rfl, Option.bind_some]
      cases hread : stollRest text with
      | none => simp only [hread, Option.map_none, Option.getD_none]
      | some p => simp only [hread, Option.map_some, Option.getD_some]

/-- The number at the front is what is meant if nothing but blanks follows. -/
theorem wholeInt_of_integerRest (h : integerRest s = some (n, rest)) :
    wholeInt T s =
      if rest.all isSpace = true ∧ T.Represents n then some n else none := by
  refine Option.ext fun m => ?_
  rw [wholeInt_eq_some_iff, integerRest_trim_iff, h]
  constructor
  · rintro ⟨⟨rest, ⟨⟩, hblank⟩, hm⟩
    exact if_pos ⟨List.all_eq_true.2 hblank, hm⟩
  · intro hm
    split_ifs at hm with hn
    cases hm
    exact ⟨⟨rest, rfl, List.all_eq_true.1 hn.1⟩, hn.2⟩

/-- The text of a variable is read as it is meant. -/
theorem read_eq_wholeInt_iff : ((stollRest s).map fun p => T.narrow p.1) = wholeInt T s ↔
    ∀ n rest, integerRest s = some (n, rest) →
      (IsInt64 n ↔ (∀ b ∈ rest, isSpace b = true) ∧ T.Represents n) := by
  cases hread : integerRest s with
  | none =>
    have hwhole : wholeInt T s = none := by
      refine Option.eq_none_iff_forall_not_mem.2 fun m hm => ?_
      obtain ⟨rest, hrest, -⟩ := integerRest_trim_iff.1 (wholeInt_eq_some_iff.1 hm).1
      rw [hread] at hrest
      cases hrest
    rw [stollRest, hread, hwhole]
    exact iff_of_true rfl nofun
  | some p =>
    obtain ⟨n, rest⟩ := p
    rw [wholeInt_of_integerRest hread, stollRest, hread, Option.filter_some]
    have hone : (∀ n' rest', some (n, rest) = some (n', rest') →
        (IsInt64 n' ↔ (∀ b ∈ rest', isSpace b = true) ∧ T.Represents n')) ↔
          (IsInt64 n ↔ (∀ b ∈ rest, isSpace b = true) ∧ T.Represents n) := by
      refine ⟨fun h => h n rest rfl, ?_⟩
      rintro h n' rest' ⟨⟩
      exact h
    rw [hone, ← List.all_eq_true]
    -- Both readings have a value, or one of them, or neither.
    by_cases hint : IsInt64 n <;>
      by_cases hmeant : rest.all isSpace = true ∧ T.Represents n
    · rw [if_pos (decide_eq_true hint), if_pos hmeant, Option.map_some,
        narrow_of_represents hmeant.2]
      exact iff_of_true rfl (iff_of_true hint hmeant)
    · rw [if_pos (decide_eq_true hint), if_neg hmeant]
      exact iff_of_false nofun fun h => hmeant (h.1 hint)
    · rw [if_neg (by simpa using hint), if_pos hmeant]
      exact iff_of_false nofun fun h => hint (h.2 hmeant)
    · rw [if_neg (by simpa using hint), if_neg hmeant]
      exact iff_of_true rfl (iff_of_false hint hmeant)

/-! ## Sizes -/

theorem isNumeric_of_isDigit {b : UInt8} (h : Json.isDigit b = true) : isNumeric b = true := by
  rw [isNumeric, h, Bool.true_or]

/-- The digits in front are those of the numeric part. -/
theorem stoull_takeWhile (s : Bytes) : stoull (s.takeWhile isNumeric) = stoull s := by
  have hdigits : (fun b => decide (Json.isDigit b = true ∧ isNumeric b = true)) = Json.isDigit := by
    funext b
    cases hb : Json.isDigit b with
    | false => simp
    | true => simp [isNumeric_of_isDigit hb]
  rw [stoull, stoull, List.takeWhile_takeWhile, hdigits]

/-- The number of a size as the code reads it. -/
theorem parseSizeString_eq (s : Bytes) (fallback : Nat) :
    parseSizeString s fallback =
      ((stoull (trim s)).bind fun base =>
        (unitFactor ((trim s).dropWhile isNumeric)).map fun factor =>
          base * factor % 2 ^ 64).getD fallback := by
  rw [parseSizeString, ← stoull_takeWhile (trim s)]
  by_cases hempty : trim s = []
  · rw [hempty]
    rfl
  by_cases hnumber : (trim s).takeWhile isNumeric = []
  · simp only [hnumber, List.isEmpty_nil, if_pos, ite_self]
    rfl
  simp only [List.isEmpty_iff, hempty, hnumber, if_false]
  cases stoull ((trim s).takeWhile isNumeric) with
  | none => rfl
  | some base =>
    cases unitFactor ((trim s).dropWhile isNumeric) with
    | none => rfl
    | some factor => rfl

theorem toLower_of_isNumeric {b : UInt8} (h : isNumeric b = true) : toLower b = b := by
  refine if_neg fun hb => ?_
  simp only [isNumeric, Json.isDigit, Bool.or_eq_true, Bool.and_eq_true, decide_eq_true_eq,
    beq_iff_eq, UInt8.le_iff_toNat_le, ← UInt8.toNat_inj] at h hb
  simp only [UInt8.reduceToNat] at h hb
  omega

/-- A unit starts with a letter, if it is not empty. -/
theorem any_head?_of_unitFactor {unit : Bytes} {factor : Nat} (h : unitFactor unit = some factor) :
    (unit.map toLower).head?.any isNumeric = false := by
  unfold unitFactor at h
  generalize unit.map toLower = lower at h ⊢
  simp only at h
  by_contra hnumeric
  have hne : ∀ known ∈ [[], bytes "b", bytes "k", bytes "kb", bytes "m", bytes "mb", bytes "g",
      bytes "gb", bytes "kib", bytes "mib", bytes "gib"], lower ≠ known := by
    rintro known hknown rfl
    exact hnumeric ((by decide : ∀ known ∈ [[], bytes "b", bytes "k", bytes "kb", bytes "m",
      bytes "mb", bytes "g", bytes "gb", bytes "kib", bytes "mib", bytes "gib"],
      known.head?.any isNumeric = false) lower hknown)
  simp only [List.forall_mem_cons] at hne
  simp only [hne, or_self, if_false] at h
  cases h

theorem takeWhile_of_unitFactor {unit : Bytes} {factor : Nat} (h : unitFactor unit = some factor) :
    unit.takeWhile isNumeric = [] := by
  have hhead := any_head?_of_unitFactor h
  cases unit with
  | nil => rfl
  | cons b unit =>
    refine List.takeWhile_cons_of_neg fun hb => ?_
    rw [List.map_cons, List.head?_cons, Option.any_some, toLower_of_isNumeric hb, hb] at hhead
    cases hhead

theorem unitFactor_pos {unit : Bytes} {factor : Nat} (h : unitFactor unit = some factor) :
    0 < factor := by
  unfold unitFactor at h
  simp only at h
  split_ifs at h <;> cases h <;> decide

theorem represents_uintmax_iff (k : Nat) : IntType.uintmax.Represents k ↔ k < 2 ^ 64 := by
  simp only [IntType.Represents, IntType.least, IntType.uintmax, Bool.false_eq_true, if_false]
  omega

/-- A number and a unit are meant if nothing stands between them. -/
theorem wholeSize_of_integerRest (h : integerRest (trim s) = some (n, rest)) :
    wholeSize s = (unitFactor (rest.dropWhile isNumeric)).bind fun factor =>
      if rest.takeWhile isNumeric = [] ∧ IntType.uintmax.Represents (n * factor) then
        some (n * factor).toNat else none := by
  rw [wholeSize, h]
  by_cases hnumeric : rest.takeWhile isNumeric = []
  · have hunit : rest.dropWhile isNumeric = rest := by
      rw [← List.nil_append (rest.dropWhile isNumeric), ← hnumeric,
        List.takeWhile_append_dropWhile]
    rw [hunit]
    cases hfactor : unitFactor rest with
    | none => simp only [hfactor, Option.bind_none]
    | some factor => simp only [hfactor, Option.bind_some, hnumeric, true_and]
  · have hnone : unitFactor rest = none :=
      Option.eq_none_iff_forall_not_mem.2 fun factor h => hnumeric (takeWhile_of_unitFactor h)
    simp only [hnone, hnumeric, false_and, if_false, Option.bind_fun_none]

/-- Without a sign the code reads the number, if it is small enough. -/
theorem stoull_of_digit (hdigit : s.head?.any Json.isDigit = true) :
    integerRest s = some ((Json.digitsVal (s.takeWhile Json.isDigit) : Int),
        s.dropWhile Json.isDigit) ∧
      stoull s = if Json.digitsVal (s.takeWhile Json.isDigit) < 2 ^ 64 then
        some (Json.digitsVal (s.takeWhile Json.isDigit)) else none := by
  cases s with
  | nil => cases hdigit
  | cons b s =>
    have hne : ((b :: s).takeWhile Json.isDigit).isEmpty = false := by
      rw [List.takeWhile_cons_of_pos (show Json.isDigit b = true from hdigit)]
      rfl
    constructor
    · rw [integerRest]
      simp only [takeSign_digit hdigit]
      rw [hne]
      rfl
    · have hcond : ∀ base : Nat,
          (((b :: s).takeWhile Json.isDigit).isEmpty = true ∨ 2 ^ 64 ≤ base) ↔
            ¬base < 2 ^ 64 := by
        intro base
        rw [hne]
        simp
      simp only [stoull, hcond, ite_not]

/-- With one, or without a number, it reads nothing. -/
theorem stoull_of_not_digit (hdigit : s.head?.any Json.isDigit = false) : stoull s = none := by
  cases s with
  | nil => rfl
  | cons b s =>
    have hnil : (b :: s).takeWhile Json.isDigit = [] :=
      List.takeWhile_cons_of_neg (by simpa using hdigit)
    rw [stoull, hnil]
    rfl

/-- The numeric part ends where the digits and what follows of it end. -/
theorem dropWhile_isNumeric (s : Bytes) :
    s.dropWhile isNumeric = (s.dropWhile Json.isDigit).dropWhile isNumeric := by
  conv_lhs => rw [← List.takeWhile_append_dropWhile (p := Json.isDigit) (l := s)]
  exact List.dropWhile_append_of_pos fun b hb => isNumeric_of_isDigit (List.mem_takeWhile_imp hb)

/-- A size is read as it is meant. -/
theorem read_eq_wholeSize_iff :
    ((stoull (trim s)).bind fun base =>
      (unitFactor ((trim s).dropWhile isNumeric)).map fun factor => base * factor % 2 ^ 64) =
        wholeSize s ↔ SizeExact s := by
  cases hdigit : (trim s).head?.any Json.isDigit with
  | true =>
    obtain ⟨hread, hstoull⟩ := stoull_of_digit hdigit
    rw [wholeSize_of_integerRest hread, hstoull, dropWhile_isNumeric]
    generalize Json.digitsVal ((trim s).takeWhile Json.isDigit) = base at hread ⊢
    generalize (trim s).dropWhile Json.isDigit = rest at hread ⊢
    have hone : SizeExact s ↔ ∀ factor, unitFactor (rest.dropWhile isNumeric) = some factor →
        base < 2 ^ 64 →
          rest.takeWhile isNumeric = [] ∧ IntType.uintmax.Represents ((base : Int) * factor) := by
      simp only [SizeExact, hread, hdigit, if_pos]
      constructor
      · intro h factor hfactor hbase
        exact h base rest factor rfl hfactor (by exact_mod_cast hbase)
      · rintro h _ _ factor ⟨⟩ hfactor hbase
        exact h factor hfactor (by exact_mod_cast hbase)
    rw [hone]
    cases hfactor : unitFactor (rest.dropWhile isNumeric) with
    | none => exact iff_of_true (by simp) nofun
    | some factor =>
      have hmul : base ≤ base * factor := Nat.le_mul_of_pos_right base (unitFactor_pos hfactor)
      simp only [Option.map_some, Option.bind_some, Option.some.injEq, forall_eq',
        ← Int.natCast_mul, represents_uintmax_iff, Int.toNat_natCast]
      by_cases hbase : base < 2 ^ 64
      · rw [if_pos hbase, Option.bind_some]
        by_cases hmeant : rest.takeWhile isNumeric = [] ∧ base * factor < 2 ^ 64
        · rw [if_pos hmeant, Nat.mod_eq_of_lt hmeant.2]
          exact iff_of_true rfl fun _ => hmeant
        · rw [if_neg hmeant]
          exact iff_of_false nofun fun h => hmeant (h hbase)
      · -- the product is at least as large as the number
        rw [if_neg hbase, Option.bind_none, if_neg fun h => hbase (hmul.trans_lt h.2)]
        exact iff_of_true rfl fun h => absurd h hbase
  | false =>
    have hone : SizeExact s ↔ ∀ n rest factor, integerRest (trim s) = some (n, rest) →
        unitFactor (rest.dropWhile isNumeric) = some factor →
          ¬(rest.takeWhile isNumeric = [] ∧ IntType.uintmax.Represents (n * factor)) := by
      simp only [SizeExact, hdigit, Bool.false_eq_true, if_false, not_and]
    rw [stoull_of_not_digit hdigit, Option.bind_none, hone]
    cases hread : integerRest (trim s) with
    | none =>
      refine iff_of_true ?_ nofun
      rw [wholeSize, hread]
    | some p =>
      obtain ⟨n, rest⟩ := p
      rw [wholeSize_of_integerRest hread, eq_comm, Option.bind_eq_none_iff]
      constructor
      · rintro h _ _ factor ⟨⟩ hfactor hmeant
        have hnone := h factor hfactor
        rw [if_pos hmeant] at hnone
        cases hnone
      · intro h factor hfactor
        exact if_neg (h n rest factor rfl hfactor)

/-- A text is read as it is meant, for every fallback, exactly where it is read exactly; and so is
    a size. -/
theorem numbers_exact_iff (T : IntType) (v : Option Bytes) (s : Bytes) :
    ((∀ fallback, T.Represents fallback → getenvIntOr T v fallback = intendedInt T v fallback) ↔
      ReadsExactly T v) ∧
    ((∀ fallback, fallback < 2 ^ 64 → parseSizeString s fallback = intendedSize s fallback) ↔
      SizeExact s) := by
  constructor
  · simp only [getenvIntOr_eq, intendedInt]
    rw [forall_getD_eq_iff (exists_represents_ne T)]
    cases v with
    | none => exact iff_of_true rfl nofun
    | some text =>
      refine read_eq_wholeInt_iff.trans ⟨?_, fun h => h text rfl⟩
      rintro h _ ⟨⟩
      exact h
  · simp only [parseSizeString_eq, intendedSize]
    rw [forall_getD_eq_iff fun a => ?_]
    · exact read_eq_wholeSize_iff
    · by_cases ha : a = 0
      · exact ⟨1, by decide, by omega⟩
      · exact ⟨0, by decide, by omega⟩

/-- A port with letters behind it, one that is too large, a size with a fraction, and one that is
    too large. -/
theorem inexact_numbers :
    getenvIntOr .uint16 (some (bytes "8080abc")) 80 = 8080 ∧
      intendedInt .uint16 (some (bytes "8080abc")) 80 = 80 ∧
      getenvIntOr .uint16 (some (bytes "70000")) 80 = 4464 ∧
      intendedInt .uint16 (some (bytes "70000")) 80 = 80 ∧
      parseSizeString (bytes "1.5M") 7 = 1048576 ∧ intendedSize (bytes "1.5M") 7 = 7 ∧
      parseSizeString (bytes "17179869184G") 7 = 0 ∧
      intendedSize (bytes "17179869184G") 7 = 7 := by
  decide +kernel

end LiteCode.Config
