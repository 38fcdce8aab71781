import LiteCode.Lib.Cut
import LiteCode.Routes.Profile
import LiteCode.Routes.SuperAdmin

/-!
# Addresses in registrations and profiles

An email address is checked by `validate_email` of `src/db/user_repo.h` when a user is registered,
and by `validate_email_field` of `src/routes/auth_routes.h` when a profile is edited. Both want a
local part, an `@` and a domain with a dot in it that is not the last byte. The first check goes on:
there is one `@`, the domain neither starts nor ends with a dot, and there is no white space.

* `validateEmail_eq_none_iff`, `validateEmailField_eq_none_iff`: what each of them admits;
* `Loose`: the addresses that only a profile may have;
* `same_emails_iff`: on all others, and on no loose one, the checks agree.
-/

namespace LiteCode.Emails

open SuperAdmin (validateEmail)
open Profile (validateEmailField)

variable {s a d p q : Bytes}

/-- An address that the profile takes for what it is not: its domain has a dot before its last byte,
    but starts or ends with one too, or there is a second `@`, or white space. -/
def Loose (s : Bytes) : Prop :=
  ∃ a p q, s = a ++ 0x40 :: (p ++ 0x2E :: q) ∧ a ≠ [] ∧ 0x40 ∉ a ∧ 0x2E ∉ p ∧ q ≠ [] ∧
    s.length ≤ 100 ∧ (p = [] ∨ 0x40 ∈ p ∨ 0x40 ∈ q ∨ q.getLast? = some 0x2E ∨ s.any isSpace = true)

/-! ## The checks on a local part and a domain -/

theorem drop_sign : (a ++ 0x40 :: d).drop (a.length + 1) = d := by
  rw [← List.drop_drop, List.drop_left]
  rfl

/-- A check is passed. -/
theorem ite_some_eq_none {c : Prop} [Decidable c] {e : Bytes} {o : Option Bytes} :
    (if c then some e else o) = none ↔ ¬c ∧ o = none := by
  by_cases hc : c <;> simp [hc]

theorem validateEmail_eq_none_iff (ha : 0x40 ∉ a) :
    validateEmail (a ++ 0x40 :: d) = none ↔
      (3 ≤ (a ++ 0x40 :: d).length ∧ (a ++ 0x40 :: d).length ≤ 100) ∧ (a ≠ [] ∧ d ≠ []) ∧
        0x40 ∉ d ∧ (0x2E ∈ d ∧ d.head? ≠ some 0x2E ∧ d.getLast? ≠ some 0x2E) ∧
          (a ++ 0x40 :: d).any isSpace = false := by
  simp only [validateEmail, takeWhile_ne_append ha, drop_sign, ite_some_eq_none, not_or, Nat.not_lt,
    and_true, Bool.not_eq_true, List.isEmpty_eq_false_iff, List.contains_eq_mem,
    decide_eq_false_iff_not, not_not, List.mem_append, List.mem_cons_self, or_true, true_and, ne_eq]

theorem validateEmailField_eq_none_iff (ha : 0x40 ∉ a) :
    validateEmailField (a ++ 0x40 :: d) = none ↔
      (a ++ 0x40 :: d).length ≤ 100 ∧ (a ≠ [] ∧ d ≠ []) ∧ d.idxOf 0x2E + 1 < d.length := by
  have hsign : (a ++ 0x40 :: d).idxOf 0x40 = a.length := by
    rw [List.idxOf_append_of_notMem ha, List.idxOf_cons_self, Nat.add_zero]
  have hdot := List.idxOf_le_length (a := (0x2E : UInt8)) (l := d)
  have hlocal : a ≠ [] ↔ 0 < a.length := List.length_pos_iff.symm
  have hdomain : d ≠ [] ↔ 0 < d.length := List.length_pos_iff.symm
  simp only [validateEmailField, hsign, drop_sign, ite_some_eq_none, hlocal, hdomain,
    List.length_append, List.length_cons, List.isEmpty_iff, List.append_eq_nil_iff, reduceCtorEq,
    and_false, not_false_eq_true, true_and, and_true, not_or, Nat.not_lt]
  omega

/-- A dot that is not the last byte. -/
theorem idxOf_dot_lt_iff :
    d.idxOf 0x2E + 1 < d.length ↔ ∃ p q, d = p ++ 0x2E :: q ∧ 0x2E ∉ p ∧ q ≠ [] := by
  constructor
  · intro h
    have hmem : 0x2E ∈ d := List.idxOf_lt_length_iff.1 (by omega)
    obtain ⟨p, q, rfl, hp⟩ := List.eq_append_cons_of_mem hmem
    refine ⟨p, q, rfl, hp, ?_⟩
    rintro rfl
    simp [List.idxOf_append_of_notMem hp] at h
  · rintro ⟨p, q, rfl, hp, hq⟩
    have := List.length_pos_iff.2 hq
    simp only [List.idxOf_append_of_notMem hp, List.idxOf_cons_self, List.length_append,
      List.length_cons]
    omega

/-! ## The two checks -/

/-- Without an `@` there is no address. -/
theorem refused_of_notMem (hs : 0x40 ∉ s) :
    validateEmail s ≠ none ∧ validateEmailField s ≠ none := by
  have hsign : s.idxOf 0x40 = s.length := List.idxOf_eq_length hs
  constructor
  · simp [validateEmail, ite_some_eq_none, hs]
  · simp [validateEmailField, ite_some_eq_none, hsign]

/-- What registration admits can be written to a profile. -/
theorem validateEmailField_of_validateEmail (h : validateEmail s = none) :
    validateEmailField s = none := by
  rcases cut_cases 0x40 s with hs | ⟨a, d, rfl, ha⟩
  · exact absurd h (refused_of_notMem hs).1
  obtain ⟨⟨-, hlen⟩, hparts, -, ⟨hdot, -, hlast⟩, -⟩ := (validateEmail_eq_none_iff ha).1 h
  obtain ⟨p, q, rfl, hp⟩ := List.eq_append_cons_of_mem hdot
  refine (validateEmailField_eq_none_iff ha).2
    ⟨hlen, hparts, idxOf_dot_lt_iff.2 ⟨p, q, rfl, hp, ?_⟩⟩
  rintro rfl
  exact hlast (by simp)

/-- The loose addresses are those that only the profile admits. -/
theorem loose_iff : Loose s ↔ validateEmailField s = none ∧ validateEmail s ≠ none := by
  constructor
  · rintro ⟨a, p, q, rfl, ha, hsign, hp, hq, hlen, hloose⟩
    refine ⟨(validateEmailField_eq_none_iff hsign).2
      ⟨hlen, ⟨ha, by simp⟩, idxOf_dot_lt_iff.2 ⟨p, q, rfl, hp, hq⟩⟩, fun h => ?_⟩
    obtain ⟨-, -, hone, ⟨-, hfirst, hlast⟩, hspace⟩ := (validateEmail_eq_none_iff hsign).1 h
    rcases hloose with rfl | h | h | h | h
    · exact hfirst rfl
    · exact hone (List.mem_append_left _ h)
    · exact hone (List.mem_append_right _ (List.mem_cons_of_mem _ h))
    · exact hlast (by simp [List.getLast?_append, List.getLast?_cons, h])
    · exact Bool.false_ne_true (hspace.symm.trans h)
  · rintro ⟨hfield, hemail⟩
    rcases cut_cases 0x40 s with hs | ⟨a, d, rfl, ha⟩
    · exact absurd hfield (refused_of_notMem hs).2
    obtain ⟨hlen, hparts, hdot⟩ := (validateEmailField_eq_none_iff ha).1 hfield
    obtain ⟨p, q, rfl, hp, hq⟩ := idxOf_dot_lt_iff.1 hdot
    refine ⟨a, p, q, rfl, hparts.1, ha, hp, hq, hlen, by_contra fun hstrict => hemail ?_⟩
    simp only [not_or, Bool.not_eq_true] at hstrict
    obtain ⟨hfirst, hone, hone', hlast, hspace⟩ := hstrict
    have := List.length_pos_iff.2 hparts.1
    refine (validateEmail_eq_none_iff ha).2 ⟨⟨?_, hlen⟩, hparts, ?_, ⟨?_, ?_, ?_⟩, hspace⟩
    · simp only [List.length_append, List.length_cons]
      omega
    · simp [hone, hone']
    · simp
    · cases p with
      | nil => exact absurd rfl hfirst
      | cons b p => simpa using fun h : b = 0x2E => hp (by simp [h])
    · obtain ⟨q, b, rfl⟩ := List.eq_nil_or_concat q |>.resolve_left hq
      simpa [List.getLast?_append, List.getLast?_cons] using hlast

/-- A registration and a profile take the same texts for addresses, except for the loose ones. -/
theorem same_emails_iff (s : Bytes) :
    (validateEmail s = none ↔ validateEmailField s = none) ↔ ¬Loose s := by
  rw [loose_iff]
  exact ⟨fun h hloose => hloose.2 (h.2 hloose.1), fun h =>
    ⟨validateEmailField_of_validateEmail, fun hfield => by_contra fun hemail => h ⟨hfield, hemail⟩⟩⟩

/-- `a b@c.d` is refused to a new user, and given to one who edits the profile. -/
theorem not_same_emails :
    ¬∀ s : Bytes, validateEmail s = none ↔ validateEmailField s = none := by
  intro h
  exact absurd ((h (bytes "a b@c.d")).2 (by decide)) (by decide)

end LiteCode.Emails
