import LiteCode.Routes.AdminRole
import LiteCode.Routes.SubmissionAccess

/-!
# Numbers in paths and queries

The parsers of ids and of integer parameters: `extract_id_from_path` and `extract_sse_id_from_path`
of `src/routes/submission_routes.h`, `parse_int_param` of `src/routes/problem_routes.h` and
`parse_id_param` of `src/routes/admin_user_routes.h`. An id is meant to have one spelling: digits,
and no zero in front of another digit.

The last one looks at the digits itself. The others leave this to `std::stoi`, which also takes
blanks and a sign in front, and any number of zeros.

* `Parser.intended`: what the comments of the code promise;
* `OnlySpelling`: the text is not another spelling of a number that is admitted;
* `parse_eq_intended_iff`: the parsers keep the promise on these texts, and on no others.
-/

namespace LiteCode.IdParams

open SubmissionAccess AdminUserRoutes

/-- `parse_int_param`. -/
def parseIntParam (raw : Bytes) (min max : Int) : Option Int :=
  if raw.isEmpty then none
  -- blanks in front or at the end
  else if raw.head?.any isSpace || raw.getLast?.any isSpace then none
  else match stoiRest raw with
    | some (value, []) => if value < min ∨ max < value then none else some value
    | _ => none

/-! ## One spelling -/

/-- Digits, and a zero only as the last one in front. -/
def Canonical (s : Bytes) : Prop :=
  s ≠ [] ∧ (∀ b ∈ s, Json.isDigit b = true) ∧ (s.head? = some 0x30 → s = [0x30])

instance (s : Bytes) : Decidable (Canonical s) :=
  decidable_of_iff
    (s ≠ [] ∧ s.all Json.isDigit = true ∧ (s.head? = some 0x30 → s = [0x30]))
    (by rw [List.all_eq_true, Canonical])

/-- The number of a canonical text, if it is admitted. -/
def admitted (min max : Int) (s : Bytes) : Option Int :=
  if Canonical s ∧ min ≤ Json.digitsVal s ∧ Json.digitsVal s ≤ max then some (Json.digitsVal s)
  else none

/-- No text but a canonical one is a spelling of an admitted number. -/
def OnlySpelling (min max : Int) (s : Bytes) : Prop :=
  ∀ p : Spelling, p.text = s → min ≤ p.value → p.value ≤ max → Canonical s

/-- The parsers; a range is one of an `int`. -/
inductive Parser
  | submissionId
  | sseId
  | intParam (min max : Int) (hmin : IsInt32 min) (hmax : IsInt32 max)
  | idParam

/-- What a parser gives for a text, which stands at the end of the path of a submission. -/
def Parser.parse : Parser → Bytes → Option Int
  | .submissionId, s =>
    (extractId (bytes "/api/v1/submissions/") (bytes "/api/v1/submissions/" ++ s)).map Int.ofNat
  | .sseId, s =>
    (extractId (bytes "/api/v1/submissions/sse/") (bytes "/api/v1/submissions/sse/" ++ s)).map
      Int.ofNat
  | .intParam min max _ _, s => parseIntParam s min max
  | .idParam, s => parseIdParam s

/-- What is meant. -/
def Parser.intended : Parser → Bytes → Option Int
  | .submissionId, s | .sseId, s => admitted 1 (2 ^ 31 - 1) s
  | .intParam min max _ _, s => admitted min max s
  | .idParam, s =>
    if s.length ≤ 11 ∧ s.all Json.isDigit = true ∧ 1 ≤ Json.digitsVal s ∧
        Json.digitsVal s ≤ 2 ^ 31 - 1 then
      some (Json.digitsVal s)
    else none

/-- A text on which a parser does what is meant. -/
def Parser.Unambiguous : Parser → Bytes → Prop
  | .submissionId, s | .sseId, s => OnlySpelling 1 (2 ^ 31 - 1) s
  -- a blank in front is refused
  | .intParam min max _ _, s => s.head?.any isSpace = true ∨ OnlySpelling min max s
  | .idParam, _ => True

variable {s : Bytes} {min max n : Int} {r : Option Int}

/-- A canonical text is a spelling of its number. -/
def Canonical.spelling (h : Canonical s) : Spelling where
  blanks := []
  sign := []
  digits := s
  isSpace_blanks := nofun
  sign_mem := .inl rfl
  digits_ne_nil := h.1
  isDigit_digits := h.2.1

theorem Canonical.text_spelling (h : Canonical s) : h.spelling.text = s := rfl

/-- The spellings of a text have one value. -/
theorem value_eq_of_text {p q : Spelling} (h : p.text = q.text) : p.value = q.value := by
  have hp := p.integerRest_append noDigit_nil
  rw [h, q.integerRest_append noDigit_nil] at hp
  exact (Prod.mk.inj (Option.some.inj hp)).1.symm

/-- A parser that takes the spellings of the admitted numbers. -/
theorem eq_admitted_iff
    (h : ∀ n, r = some n ↔ ∃ p : Spelling, p.text = s ∧ p.value = n ∧ min ≤ n ∧ n ≤ max) :
    r = admitted min max s ↔ OnlySpelling min max s := by
  constructor
  · intro heq p hp hmin hmax
    have hr := (h p.value).2 ⟨p, hp, rfl, hmin, hmax⟩
    rw [heq, admitted] at hr
    split_ifs at hr with hc
    exact hc.1
  · intro honly
    refine Option.ext fun n => ?_
    rw [h, admitted]
    constructor
    · rintro ⟨p, hp, rfl, hmin, hmax⟩
      have hc := honly p hp hmin hmax
      have hv : p.value = Json.digitsVal s := value_eq_of_text (hp.trans hc.text_spelling.symm)
      rw [hv] at hmin hmax ⊢
      exact if_pos ⟨hc, hmin, hmax⟩
    · intro ha
      split_ifs at ha with hc
      cases ha
      exact ⟨hc.1.spelling, hc.1.text_spelling, rfl, hc.2⟩

/-- What `std::stoi` reads to the end of the text. -/
theorem stoiRest_eq_some_nil_iff :
    stoiRest s = some (n, []) ↔ ∃ p : Spelling, p.text = s ∧ p.value = n ∧ IsInt32 n := by
  rw [stoiRest_eq, Option.filter_eq_some_iff, integerRest_eq_some_iff]
  constructor
  · rintro ⟨⟨p, hs, hn, -⟩, hrange⟩
    exact ⟨p, by rw [hs, List.append_nil], hn.symm, of_decide_eq_true hrange⟩
  · rintro ⟨p, hs, hn, hrange⟩
    exact ⟨⟨p, by rw [hs, List.append_nil], hn.symm, noDigit_nil⟩, decide_eq_true hrange⟩

/-- What a spelling is made of. -/
theorem mem_text_cases {p : Spelling} {b : UInt8} (h : b ∈ p.text) :
    isSpace b = true ∨ b = 0x2B ∨ b = 0x2D ∨ Json.isDigit b = true := by
  rw [Spelling.text, List.mem_append, List.mem_append] at h
  rcases h with h | h | h
  · exact .inl (p.isSpace_blanks b h)
  · rcases p.sign_mem with hs | hs | hs <;> rw [hs] at h
    · cases h
    · exact .inr (.inl (List.mem_singleton.1 h))
    · exact .inr (.inr (.inl (List.mem_singleton.1 h)))
  · exact .inr (.inr (.inr (p.isDigit_digits b h)))

/-- `extract_id_from_path` takes the spellings of the positive numbers. -/
theorem extractId_append_iff (start : Bytes) :
    (extractId start (start ++ s)).map Int.ofNat = some n ↔
      ∃ p : Spelling, p.text = s ∧ p.value = n ∧ 1 ≤ n ∧ n ≤ 2 ^ 31 - 1 := by
  have hrange : IsInt32 n ∧ 0 < n ↔ 1 ≤ n ∧ n ≤ 2 ^ 31 - 1 := by
    unfold IsInt32
    omega
  have hread : (extractId start (start ++ s)).map Int.ofNat = some n ↔
      stoiRest s = some (n, []) ∧ 0 < n := by
    rw [extractId]
    simp only [List.length_append, List.take_left, List.drop_left, ne_eq, not_true_eq_false,
      if_false]
    by_cases hempty : s = []
    · subst hempty
      exact iff_of_false (by simp) (by simp [stoiRest, takeSign])
    have hlen : ¬start.length + s.length ≤ start.length := by
      have := List.length_pos_iff.2 hempty
      omega
    rw [if_neg hlen]
    by_cases hslash : s.contains 0x2F = true
    · -- there is no slash in a number
      rw [if_pos hslash]
      refine iff_of_false (Option.some_ne_none n).symm fun h => ?_
      obtain ⟨p, rfl, -⟩ := stoiRest_eq_some_nil_iff.1 h.1
      rcases mem_text_cases (List.contains_iff_mem.1 hslash) with hb | hb | hb | hb <;> cases hb
    · rw [if_neg hslash]
      split
      · next m hm =>
        rw [hm]
        split_ifs with hle
        · simp; omega
        · simp; omega
      · next hnot =>
        exact iff_of_false (Option.some_ne_none n).symm fun h => hnot n h.1
  rw [hread, stoiRest_eq_some_nil_iff, ← hrange]
  constructor
  · rintro ⟨⟨p, hs, hn, h32⟩, hpos⟩
    exact ⟨p, hs, hn, h32, hpos⟩
  · rintro ⟨p, hs, hn, h32, hpos⟩
    exact ⟨⟨p, hs, hn, h32⟩, hpos⟩

/-- `parse_int_param` does so where there is no blank in front. -/
theorem parseIntParam_eq_some_iff (hmin : IsInt32 min) (hmax : IsInt32 max)
    (hfront : s.head?.any isSpace = false) :
    parseIntParam s min max = some n ↔
      ∃ p : Spelling, p.text = s ∧ p.value = n ∧ min ≤ n ∧ n ≤ max := by
  have hread : parseIntParam s min max = some n ↔
      stoiRest s = some (n, []) ∧ min ≤ n ∧ n ≤ max := by
    rw [parseIntParam, hfront, Bool.false_or]
    split_ifs with hempty hback
    · rw [List.isEmpty_iff.1 hempty]
      exact iff_of_false not_false (by simp [stoiRest, takeSign])
    · -- no number ends with a blank
      refine iff_of_false not_false fun h => ?_
      obtain ⟨p, rfl, -⟩ := stoiRest_eq_some_nil_iff.1 h.1
      rw [p.any_getLast?] at hback
      cases hback
    · split
      · next m hm =>
        rw [hm]
        split_ifs with hout
        · simp; omega
        · simp; omega
      · next hnot =>
        exact iff_of_false (Option.some_ne_none n).symm fun h => hnot n h.1
  rw [hread, stoiRest_eq_some_nil_iff]
  constructor
  · rintro ⟨⟨p, hs, hn, -⟩, h⟩
    exact ⟨p, hs, hn, h⟩
  · rintro ⟨p, hs, hn, h⟩
    have h32 : IsInt32 n := ⟨Int.le_trans hmin.1 h.1, Int.lt_of_le_of_lt h.2 hmax.2⟩
    exact ⟨⟨p, hs, hn, h32⟩, h⟩

/-- With a blank in front both say no. -/
theorem parseIntParam_of_blank (hfront : s.head?.any isSpace = true) :
    parseIntParam s min max = admitted min max s := by
  have hcanonical : ¬Canonical s := by
    rintro ⟨-, hdigits, -⟩
    obtain ⟨b, hb, hspace⟩ := (Option.any_eq_true _ _).1 hfront
    rw [not_isSpace_of_isDigit (hdigits b (List.mem_of_mem_head? hb))] at hspace
    cases hspace
  rw [admitted, if_neg fun h => hcanonical h.1, parseIntParam, hfront, Bool.true_or, if_pos rfl,
    ite_self]

theorem parseIdParam_eq (s : Bytes) : parseIdParam s = Parser.intended .idParam s := by
  simp only [parseIdParam, Parser.intended]
  by_cases hdigits : s.length ≤ 11 ∧ s.all Json.isDigit = true
  · obtain ⟨hlen, hall⟩ := hdigits
    cases s with
    | nil => rfl
    | cons b s =>
      have hshape : ((b :: s).isEmpty || decide (11 < (b :: s).length) ||
          !(b :: s).all Json.isDigit) = false := by
        rw [hall, decide_eq_false (Nat.not_lt.2 hlen)]
        rfl
      rw [hshape, if_neg nofun]
      by_cases hv : 1 ≤ Json.digitsVal (b :: s) ∧ Json.digitsVal (b :: s) ≤ 2 ^ 31 - 1
      · rw [if_neg (by omega), if_pos ⟨hlen, hall, hv⟩]
      · rw [if_pos (by omega), if_neg fun h => hv h.2.2]
  · have hshape : (s.isEmpty || decide (11 < s.length) || !s.all Json.isDigit) = true := by
      by_contra h
      simp only [Bool.or_eq_true, decide_eq_true_eq, Bool.not_eq_true', not_or, Nat.not_lt,
        Bool.not_eq_false] at h
      exact hdigits ⟨h.1.2, h.2⟩
    rw [hshape, if_pos rfl, if_neg fun h => hdigits ⟨h.1, h.2.1⟩]

/-- A parser does what is meant exactly for the texts that are not another spelling of a number
    that it admits; `parse_id_param` does it for all. -/
theorem parse_eq_intended_iff (p : Parser) (s : Bytes) :
    p.parse s = p.intended s ↔ p.Unambiguous s := by
  cases p with
  | submissionId => exact eq_admitted_iff fun n => extractId_append_iff _
  | sseId => exact eq_admitted_iff fun n => extractId_append_iff _
  | intParam min max hmin hmax =>
    cases hfront : s.head?.any isSpace with
    | true => exact iff_of_true (parseIntParam_of_blank hfront) (.inl hfront)
    | false =>
      refine (eq_admitted_iff fun n => parseIntParam_eq_some_iff hmin hmax hfront).trans ?_
      rw [Parser.Unambiguous, hfront]
      exact (or_iff_right Bool.false_ne_true).symm
  | idParam => exact iff_of_true (parseIdParam_eq s) trivial

/-- Zeros in front of an id, and a sign in front of a parameter, are taken. -/
theorem other_spellings_taken :
    Parser.submissionId.parse (bytes "007") = some 7 ∧
      Parser.submissionId.intended (bytes "007") = none ∧
      (Parser.intParam 0 100 (by decide) (by decide)).parse (bytes "+0") = some 0 ∧
      (Parser.intParam 0 100 (by decide) (by decide)).intended (bytes "+0") = none := by
  decide +kernel

end LiteCode.IdParams
