import LiteCode.Lib.JsonLiteral
import LiteCode.Lib.Stoi
import LiteCode.Routes.AdminProblem

/-!
# Integers in request bodies

Four places take an integer from a JSON body: `require_int_field` of
`src/routes/submission_routes.h`, `optional_int_field` of `src/routes/admin_problem_routes.h` and of
`src/routes/admin_bulk_import_routes.h`, and `order_num` in `parse_samples_array`. The first three
have a range.

The reader of JSON keeps an integer of 64 bits; a larger one becomes a float, which all of them
refuse. They cut the 64 bits to those of an `int` first, and look at the range then.

* `Site.Takes`: the integer is taken as it was sent, and only in the range;
* `Site.Uncut`: what the cut leaves of the integer is the integer, or is out of the range;
* `takes_iff`: the places take an integer as it was sent exactly if it is uncut.
-/

namespace LiteCode.IntFields

open ErrorHandler
open Json (IntLiteral)

/-- `require_int_field`. -/
def requireIntField (body : Json) (name : String) (min max : Int) : Except Envelope Int :=
  match body.get? (bytes name) with
  | none | some .null =>
    .error (invalidInput (bytes "missing required field '" ++ bytes name ++ bytes "'")
      [field (bytes name)])
  | some j =>
    match BulkImport.getInteger j with
    | none => .error (invalidInput (bytes "field '" ++ bytes name ++ bytes "' must be an integer")
        [field (bytes name)])
    | some v =>
      if v < min ∨ max < v then
        .error (invalidInput (bytes "field '" ++ bytes name ++ bytes "' out of range")
          [field (bytes name), .text (bytes "value") (decimalInt v),
            .text (bytes "min") (decimalInt min), .text (bytes "max") (decimalInt max)])
      else .ok v

/-- The bounds of a field, which are `int`s. -/
structure Bounds where
  min : Int
  max : Int
  isInt32_min : IsInt32 min
  isInt32_max : IsInt32 max

/-- The places that take an integer. -/
inductive Site
  | requireIntField
  | adminOptionalIntField
  | bulkOptionalIntField
  | orderNum (i : Nat)
  deriving DecidableEq, Repr

namespace Site

/-- The integer that a place takes from an object. An `order_num` has no bounds. -/
def read (site : Site) (j : Json) (name : String) (b : Bounds) : Option Int :=
  match site with
  | .requireIntField => (IntFields.requireIntField j name b.min b.max).toOption
  | .adminOptionalIntField => (AdminProblem.optionalIntField j name b.min b.max).value
  | .bulkOptionalIntField => (BulkImport.optionalIntField j name b.min b.max).toOption.join
  | .orderNum i => (BulkImport.entryOrder "samples" j i).toOption

/-- The name of the member that a place reads. -/
def member (site : Site) (name : String) : Bytes :=
  match site with
  | .orderNum _ => bytes "order_num"
  | _ => bytes name

/-- The integer is taken exactly if it is in the bounds, and as it was sent. An `order_num` that is
    taken is the one that was sent. -/
def Takes (site : Site) (l : IntLiteral) (j : Json) (name : String) (b : Bounds) : Prop :=
  match site with
  | .orderNum _ => ∀ n, site.read j name b = some n → n = l.value
  | _ => site.read j name b = if b.min ≤ l.value ∧ l.value ≤ b.max then some l.value else none

/-- The integer is an `int`, or has more than 64 bits, or its last 32 bits are out of the bounds. -/
def Uncut (site : Site) (l : IntLiteral) (b : Bounds) : Prop :=
  IsInt32 l.value ∨ ¬l.Fits ∨
    match site with
    | .orderNum _ => False
    | _ => ¬(b.min ≤ l.value.bmod (2 ^ 32) ∧ l.value.bmod (2 ^ 32) ≤ b.max)

end Site

/-- The member of an object is what the reader makes of an integer. -/
def SentIn (l : IntLiteral) (j : Json) (key : Bytes) : Prop :=
  ∃ m, l.number = some m ∧ j.get? key = some (.num m)

variable {l : IntLiteral} {j : Json} {name : String} {b : Bounds} {m : JsonNum} {site : Site}

/-! ## What is read -/

/-- Of an integer of 64 bits the last 32 are taken. -/
theorem getInteger_of_number (h : l.number = some m) :
    BulkImport.getInteger (.num m) = if l.Fits then some (l.value.bmod (2 ^ 32)) else none := by
  rw [l.number_eq] at h
  split_ifs at h with hfits hneg hover
  · cases h
    rw [if_pos hfits]
    rfl
  · cases h
    rw [if_pos hfits, BulkImport.getInteger, Int.toNat_of_nonneg]
    rw [IntLiteral.value, if_neg hneg]
    exact Int.natCast_nonneg _
  · cases h
    rw [if_neg hfits]
    rfl

/-- An `int` is not changed by the cut. -/
theorem bmod_of_isInt32 {n : Int} (h : IsInt32 n) : n.bmod (2 ^ 32) = n := by
  obtain ⟨hlow, hhigh⟩ := h
  rw [Int.bmod_def]
  split <;> omega

/-- The cut gives an `int`. -/
theorem isInt32_bmod (n : Int) : IsInt32 (n.bmod (2 ^ 32)) := by
  rw [IsInt32, Int.bmod_def]
  split <;> omega

/-- The three places with bounds compare the number that is left. -/
theorem read_of_sentIn (hsite : ∀ i, site ≠ .orderNum i) (h : SentIn l j (bytes name)) :
    site.read j name b =
      if l.Fits ∧ b.min ≤ l.value.bmod (2 ^ 32) ∧ l.value.bmod (2 ^ 32) ≤ b.max then
        some (l.value.bmod (2 ^ 32))
      else none := by
  obtain ⟨m, hm, hj⟩ := h
  have hget := getInteger_of_number hm
  generalize l.value.bmod (2 ^ 32) = v at hget ⊢
  by_cases hfits : l.Fits
  · rw [if_pos hfits] at hget
    have hout : v < b.min ∨ b.max < v ↔ ¬(l.Fits ∧ b.min ≤ v ∧ v ≤ b.max) := by
      rw [and_iff_right hfits]
      omega
    cases site with
    | requireIntField =>
      simp only [Site.read, IntFields.requireIntField, hj, hget, hout, ite_not]
      split_ifs <;> rfl
    | adminOptionalIntField =>
      simp only [Site.read, AdminProblem.optionalIntField, BulkImport.optionalIntField, hj, hget,
        hout, ite_not]
      split_ifs <;> rfl
    | bulkOptionalIntField =>
      simp only [Site.read, BulkImport.optionalIntField, hj, hget, hout, ite_not]
      split_ifs <;> rfl
    | orderNum i => exact absurd rfl (hsite i)
  · rw [if_neg hfits] at hget
    rw [if_neg fun h => hfits h.1]
    cases site with
    | requireIntField => simp only [Site.read, IntFields.requireIntField, hj, hget, Except.toOption]
    | adminOptionalIntField =>
      simp only [Site.read, AdminProblem.optionalIntField, BulkImport.optionalIntField, hj, hget]
      rfl
    | bulkOptionalIntField =>
      simp only [Site.read, BulkImport.optionalIntField, hj, hget, Except.toOption,
        Option.join_none]
    | orderNum i => exact absurd rfl (hsite i)

/-- An `order_num` is what is left. -/
theorem read_orderNum_of_sentIn {i : Nat} (h : SentIn l j (bytes "order_num")) :
    (Site.orderNum i).read j name b =
      if l.Fits then some (l.value.bmod (2 ^ 32)) else none := by
  obtain ⟨m, hm, hj⟩ := h
  have hget := getInteger_of_number hm
  simp only [Site.read, BulkImport.entryOrder, hj, hget]
  split_ifs <;> rfl

/-- With bounds that are `int`s, an integer is taken as it was sent if what is left of it is the
    integer, or is not taken. -/
theorem filter_bmod_eq_iff (l : IntLiteral) (b : Bounds) :
    ((if l.Fits ∧ b.min ≤ l.value.bmod (2 ^ 32) ∧ l.value.bmod (2 ^ 32) ≤ b.max then
        some (l.value.bmod (2 ^ 32)) else none) =
      if b.min ≤ l.value ∧ l.value ≤ b.max then some l.value else none) ↔
    IsInt32 l.value ∨ ¬l.Fits ∨
      ¬(b.min ≤ l.value.bmod (2 ^ 32) ∧ l.value.bmod (2 ^ 32) ≤ b.max) := by
  by_cases h32 : IsInt32 l.value
  · have hfits : l.Fits := ⟨by have := h32.1; omega, by have := h32.2; omega⟩
    rw [bmod_of_isInt32 h32]
    exact iff_of_true (by simp only [hfits, true_and]) (.inl h32)
  · have hout : ¬(b.min ≤ l.value ∧ l.value ≤ b.max) := by
      have hmin := b.isInt32_min.1
      have hmax := b.isInt32_max.2
      rintro ⟨hlow, hhigh⟩
      exact h32 ⟨by omega, by omega⟩
    rw [if_neg hout, or_iff_right h32, ← not_and_or]
    split_ifs with hread
    · exact iff_of_false nofun (not_not.2 hread)
    · exact iff_of_true rfl hread

/-- The places with bounds. -/
theorem takes_iff_of_bounds (hsite : ∀ i, site ≠ .orderNum i) (h : SentIn l j (bytes name)) :
    site.Takes l j name b ↔ site.Uncut l b := by
  have hread := read_of_sentIn (b := b) hsite h
  cases site with
  | orderNum i => exact absurd rfl (hsite i)
  | _ =>
    simp only [Site.Takes, Site.Uncut, hread]
    exact filter_bmod_eq_iff l b

/-- An integer is taken as it was sent exactly if the cut does not change it, or nothing is
    taken. -/
theorem takes_iff (site : Site) (l : IntLiteral) (j : Json) (name : String) (b : Bounds)
    (h : SentIn l j (site.member name)) : site.Takes l j name b ↔ site.Uncut l b := by
  cases site with
  | orderNum i =>
    rw [Site.Takes, read_orderNum_of_sentIn h, Site.Uncut, or_false]
    by_cases hfits : l.Fits
    · rw [if_pos hfits, or_iff_left (not_not.2 hfits)]
      constructor
      · intro htakes
        have hcut := htakes _ rfl
        rw [← hcut]
        exact isInt32_bmod l.value
      · rintro h32 n ⟨⟩
        exact bmod_of_isInt32 h32
    · rw [if_neg hfits]
      exact iff_of_true nofun (.inr hfits)
  | requireIntField => exact takes_iff_of_bounds nofun h
  | adminOptionalIntField => exact takes_iff_of_bounds nofun h
  | bulkOptionalIntField => exact takes_iff_of_bounds nofun h

/-- The bounds of `problem_id`. -/
def idBounds : Bounds := ⟨1, 2 ^ 31 - 1, by decide, by decide⟩

/-- An integer without a sign, as a member of an object. -/
def literal (digits : Bytes) (hne : digits ≠ []) (hall : ∀ b ∈ digits, Json.isDigit b = true)
    (hzero : digits.head? = some 0x30 → digits = [0x30]) : IntLiteral :=
  ⟨false, digits, hne, hall, hzero⟩

def seven : IntLiteral :=
  literal (bytes "7") (by decide) (List.all_eq_true.1 (by decide)) (by decide)

/-- One more than `2 ^ 32`. -/
def large : IntLiteral :=
  literal (bytes "4294967297") (by decide) (List.all_eq_true.1 (by decide)) (by decide)

theorem takes_iff_seven : Site.requireIntField.Takes seven
      (.obj [(bytes "problem_id", .num (.unsigned 7))]) "problem_id" idBounds ↔
    Site.requireIntField.Uncut seven idBounds :=
  takes_iff .requireIntField seven _ "problem_id" idBounds ⟨.unsigned 7, by decide, rfl⟩

/-- The number is taken for one, by a field and by an `order_num`. -/
theorem large_taken_for_one :
    SentIn large (.obj [(bytes "problem_id", .num (.unsigned 4294967297))]) (bytes "problem_id") ∧
    (Site.requireIntField.read (.obj [(bytes "problem_id", .num (.unsigned 4294967297))])
      "problem_id" idBounds = some 1) ∧
    ¬Site.requireIntField.Takes large (.obj [(bytes "problem_id", .num (.unsigned 4294967297))])
      "problem_id" idBounds ∧
    ¬(Site.orderNum 0).Takes large (.obj [(bytes "order_num", .num (.unsigned 4294967297))])
      "" idBounds := by
  refine ⟨⟨.unsigned 4294967297, by decide, rfl⟩, by decide +kernel, ?_, ?_⟩
  · intro h
    have hread : Site.requireIntField.read
        (.obj [(bytes "problem_id", .num (.unsigned 4294967297))]) "problem_id" idBounds =
          some 1 := by
      decide +kernel
    have hvalue : ¬(idBounds.min ≤ large.value ∧ large.value ≤ idBounds.max) := by decide +kernel
    simp only [Site.Takes, hread, if_neg hvalue] at h
    cases h
  · intro h
    have hread : (Site.orderNum 0).read (.obj [(bytes "order_num", .num (.unsigned 4294967297))])
        "" idBounds = some 1 := by decide +kernel
    have hvalue : (1 : Int) ≠ large.value := by decide +kernel
    exact hvalue (h 1 hread)

end LiteCode.IntFields
