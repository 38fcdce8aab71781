import LiteCode.Lib.Shape
import LiteCode.Routes.AdminProblem

/-!
# The validators of user names and slugs

User names and slugs are checked in several layers, each with a scanner of its own: the repositories
(`src/db/user_repo.h`, `src/db/problem_repo.h`) before they write, the profile route
(`src/routes/stats_routes.h`) and the helpers of `src/utils/security.h` before they read. Their
comments ask that they stay in step.

* `usernames`, `slugs`: the two shapes, and for each scanner an equation to the first fault of a
  text (`validateUsername_eq` and so on);
* `validators_lockstep`: the scanners give the same answer;
* `extractUsernameFromPath_eq_some_iff`, `extractSlugFromPath_eq_some_iff`,
  `extractSlugFromAdminPath_eq_some_iff`: what the routes accept. The trip-wires in front of the
  slugs hold back none that the repository would store;
* `addressed_of_validate`, `addressed_of_parseLoginRequest`: a problem that can be stored, and a user
  that can log in, have their addresses.
-/

namespace LiteCode.Validators

open AuthRoutes ProblemRepo AdminProblem
open Shape (Validator)

variable {s name slug path : Bytes}

/-! ## The scanners of `stats_routes.h` and `security.h` -/

/-- `kStatsMinUsernameLength`. -/
def statsMinUsernameLength : Nat := 3

/-- `kStatsMaxUsernameLength`. -/
def statsMaxUsernameLength : Nat := 50

/-- `stats_is_valid_username_char`. -/
def statsIsValidUsernameChar (c : UInt8) : Bool :=
  (0x61 ≤ c && c ≤ 0x7A) || (0x41 ≤ c && c ≤ 0x5A) || (0x30 ≤ c && c ≤ 0x39) ||
    c == 0x5F || c == 0x2D || c == 0x2E

/-- `stats_validate_username`: the error, if there is one. -/
def statsValidateUsername (username : Bytes) : Option Bytes := Id.run do
  if username.length < statsMinUsernameLength || username.length > statsMaxUsernameLength then
    return some (bytes "username must be between " ++ decimal statsMinUsernameLength ++
      bytes " and " ++ decimal statsMaxUsernameLength ++ bytes " characters")
  if username.head? == some 0x2E || username.head? == some 0x2D ||
      username.getLast? == some 0x2E || username.getLast? == some 0x2D then
    return some (bytes "username must not start or end with '.' or '-'")
  for c in username do
    if !statsIsValidUsernameChar c then
      return some (bytes "username may only contain letters, digits, '_', '-', '.'")
  return none

/-- `validate_slug_shape`. -/
def validateSlugShape (s : Bytes) : Bool := Id.run do
  if s.isEmpty || s.length > 100 then return false
  if s.head? == some 0x2D || s.getLast? == some 0x2D then return false
  for c in s do
    let ok := (0x61 ≤ c && c ≤ 0x7A) || (0x30 ≤ c && c ≤ 0x39) || c == 0x2D
    if !ok then return false
  return true

/-- `validate_username_shape`. -/
def validateUsernameShape (s : Bytes) : Bool := Id.run do
  if s.length < 3 || s.length > 50 then return false
  if s.head? == some 0x2E || s.head? == some 0x2D ||
      s.getLast? == some 0x2E || s.getLast? == some 0x2D then return false
  for c in s do
    let ok := (0x61 ≤ c && c ≤ 0x7A) || (0x41 ≤ c && c ≤ 0x5A) || (0x30 ≤ c && c ≤ 0x39) ||
      c == 0x5F || c == 0x2E || c == 0x2D
    if !ok then return false
  return true

/-! ## Two shapes -/

/-- The shape of user names. -/
def usernames : Shape UInt8 := ⟨3, 50, isDotOrHyphen, isValidUsernameChar⟩

/-- The shape of slugs. -/
def slugs : Shape UInt8 := ⟨1, 100, (· == 0x2D), isValidSlugChar⟩

/-- What is said about a user name. -/
def usernameError : Shape.Fault → Bytes
  | .length => bytes "username must be between 3 and 50 characters"
  | .edge => bytes "username must not start or end with '.' or '-'"
  | .char => bytes "username may only contain letters, digits, '_', '-', '.'"

/-- What is said about a slug. -/
def slugError : Shape.Fault → Bytes
  | .length => between "slug length" 1 100 ""
  | .edge => bytes "slug must not start or end with '-'"
  | .char => bytes "slug may only contain lowercase letters, digits, and '-'"

theorem any_isDotOrHyphen (o : Option UInt8) :
    o.any isDotOrHyphen = (o == some 0x2E || o == some 0x2D) := by
  cases o with
  | none => rfl
  | some c => rfl

theorem any_eq_hyphen (o : Option UInt8) : o.any (· == 0x2D) = (o == some 0x2D) := by
  cases o with
  | none => rfl
  | some c => rfl

/-- The copy in `stats_routes.h` words its error in the same way. -/
theorem statsLengthError :
    bytes "username must be between " ++ decimal statsMinUsernameLength ++ bytes " and " ++
      decimal statsMaxUsernameLength ++ bytes " characters" = usernameError .length := by
  decide

theorem statsIsValidUsernameChar_eq : statsIsValidUsernameChar = isValidUsernameChar := rfl

/-- `validate_username_shape` has its own order. -/
theorem usernameShapeChar_eq : (fun c : UInt8 =>
      (0x61 ≤ c && c ≤ 0x7A) || (0x41 ≤ c && c ≤ 0x5A) || (0x30 ≤ c && c ≤ 0x39) ||
        c == 0x5F || c == 0x2E || c == 0x2D) = isValidUsernameChar := by
  funext c
  rw [isValidUsernameChar, Bool.or_right_comm]

/-- `validate_username` words the first fault. -/
theorem validateUsername_eq (s : Bytes) :
    validateUsername s = (usernames.fault s).map usernameError :=
  usernames.ite_eq_fault (Option.map usernameError) Iff.rfl Iff.rfl Iff.rfl

/-- So does its copy in `stats_routes.h`. -/
theorem statsValidateUsername_eq (s : Bytes) :
    statsValidateUsername s = (usernames.fault s).map usernameError := by
  rw [statsValidateUsername, forIn_return, statsLengthError]
  -- The bounds, the ends and the characters, each against the shape.
  refine usernames.ite_eq_fault (Option.map usernameError) ?_ ?_ ?_
  · rw [Bool.or_eq_true, decide_eq_true_eq, decide_eq_true_eq]
    rfl
  · rw [usernames, any_isDotOrHyphen, any_isDotOrHyphen, Bool.or_assoc]
  · rw [statsIsValidUsernameChar_eq]
    rfl

/-- `validate_username_shape` says whether there is a fault. -/
theorem validateUsernameShape_eq (s : Bytes) :
    validateUsernameShape s = (usernames.fault s).isNone := by
  rw [validateUsernameShape, forIn_return]
  -- The scanner has no constants and no class: these are its own numbers, in its own order.
  refine usernames.ite_eq_fault Option.isNone ?_ ?_ ?_
  · rw [Bool.or_eq_true, decide_eq_true_eq, decide_eq_true_eq]
    rfl
  · rw [usernames, any_isDotOrHyphen, any_isDotOrHyphen, Bool.or_assoc]
  · rw [usernameShapeChar_eq]
    rfl

theorem require_bind {α : Type} (ok : Bool) (message : Bytes) (next : Unit → Except Bytes α) :
    (require ok message >>= next) = if ok = false then .error message else next () := by
  cases ok with
  | false => rfl
  | true => rfl

/-- `validate_slug` words the first fault. -/
theorem validateSlug_eq (s : Bytes) :
    validateSlug s = (slugs.fault s).elim (.ok ()) fun f => .error (slugError f) := by
  rw [validateSlug, require_bind, require_bind, require]
  -- `require` asks for the opposite of what is a fault.
  refine slugs.ite_eq_fault (Option.elim · (Except.ok ()) fun f => .error (slugError f)) ?_ ?_ ?_
  · rw [Bool.and_eq_false_iff, decide_eq_false_iff_not, decide_eq_false_iff_not, not_le, not_le]
    rfl
  · rw [slugs, any_eq_hyphen, any_eq_hyphen, Bool.and_eq_false_iff, bne_eq_false_iff_eq,
      bne_eq_false_iff_eq, Bool.or_eq_true, beq_iff_eq, beq_iff_eq]
  · rfl

/-- `validate_slug_shape` says whether there is a fault. -/
theorem validateSlugShape_eq (s : Bytes) : validateSlugShape s = (slugs.fault s).isNone := by
  rw [validateSlugShape, forIn_return]
  refine slugs.ite_eq_fault Option.isNone ?_ ?_ ?_
  · rw [Bool.or_eq_true, decide_eq_true_eq, List.isEmpty_iff_length_eq_zero, ← Nat.lt_one_iff]
    rfl
  · rw [slugs, any_eq_hyphen, any_eq_hyphen]
  · rfl

/-! ## One answer -/

/-- The names that are accepted. -/
theorem validateUsername_eq_none_iff : validateUsername s = none ↔ s ∈ usernames.texts := by
  rw [validateUsername_eq, Option.map_eq_none_iff, Shape.fault_eq_none_iff]

theorem statsValidateUsername_eq_none_iff :
    statsValidateUsername s = none ↔ s ∈ usernames.texts := by
  rw [statsValidateUsername_eq, Option.map_eq_none_iff, Shape.fault_eq_none_iff]

/-- The slugs that are accepted. -/
theorem validateSlug_eq_ok_iff : validateSlug s = .ok () ↔ s ∈ slugs.texts := by
  rw [validateSlug_eq, ← Shape.fault_eq_none_iff]
  cases slugs.fault s with
  | none => exact iff_of_true rfl rfl
  | some f => exact iff_of_false (fun h => by cases h) (Option.some_ne_none f)

/-- `user_repo::validate_username`. -/
def userRepo : Validator usernames where
  accepts s := (validateUsername s).isNone
  accepts_iff s := by rw [Option.isNone_iff_eq_none, validateUsername_eq_none_iff]

/-- `stats_validate_username`. -/
def statsRoutes : Validator usernames where
  accepts s := (statsValidateUsername s).isNone
  accepts_iff s := by rw [Option.isNone_iff_eq_none, statsValidateUsername_eq_none_iff]

/-- `security::validate_username_shape`. -/
def usernameShape : Validator usernames where
  accepts := validateUsernameShape
  accepts_iff s := by rw [validateUsernameShape_eq, Shape.isNone_fault_iff]

/-- `problem_repo::validate_slug`. -/
def problemRepo : Validator slugs where
  accepts s := (validateSlug s).isOk
  accepts_iff s := by
    rw [← validateSlug_eq_ok_iff]
    cases validateSlug s with
    | error e => exact iff_of_false (fun h => by cases h) (fun h => by cases h)
    | ok u => exact iff_of_true rfl rfl

/-- `security::validate_slug_shape`. -/
def slugShape : Validator slugs where
  accepts := validateSlugShape
  accepts_iff s := by rw [validateSlugShape_eq, Shape.isNone_fault_iff]

/-- The scanners give the same answer, and the same error where they give one. -/
theorem validators_lockstep (s : Bytes) :
    (validateUsername s).isNone = (statsValidateUsername s).isNone ∧
      (validateUsername s).isNone = validateUsernameShape s ∧
      validateUsername s = statsValidateUsername s ∧
      (validateSlug s).isOk = validateSlugShape s := by
  refine ⟨userRepo.agree statsRoutes s, userRepo.agree usernameShape s, ?_,
    problemRepo.agree slugShape s⟩
  rw [validateUsername_eq, statsValidateUsername_eq]

/-! ## What the routes accept -/

/-- The path of the profile route. -/
def profilePath : Bytes := bytes "/api/v1/stats/profile/"

/-- `extract_username_from_path`. -/
def extractUsernameFromPath (path : Bytes) : Option Bytes :=
  let tail := path.drop profilePath.length
  if path.length ≤ profilePath.length then none
  else if ¬profilePath <+: path then none
  else if tail.isEmpty then none
  else if tail.contains 0x2F then none
  else match statsValidateUsername tail with
    | some _ => none
    | none => some tail

/-- `validate_path_component_len`. -/
def validatePathComponentLen (s : Bytes) : Bool := !(s.isEmpty || 200 < s.length)

/-- `parse_slug_param`. -/
def parseSlugParam (raw : Bytes) : Option Bytes :=
  if raw.isEmpty then none
  else if !validatePathComponentLen raw then none
  else if bytes ".." <:+: raw then none
  else if hasControlChars raw then none
  else if hasHtmlSpecialChars raw then none
  else if hasJsonSpecialChars raw then none
  else match validateSlug raw with
    | .error _ => none
    | .ok () => some raw

/-- The path of the problem route. -/
def problemsPath : Bytes := bytes "/api/v1/problems/"

/-- `extract_slug_from_path`. -/
def extractSlugFromPath (path : Bytes) : Option Bytes :=
  if path.length ≤ problemsPath.length then none
  else if ¬problemsPath <+: path then none
  else parseSlugParam (path.drop problemsPath.length)

/-- The profile route is there for the names that can be registered, and for no others. -/
theorem extractUsernameFromPath_eq_some_iff : extractUsernameFromPath path = some name ↔
    path = profilePath ++ name ∧ name ∈ usernames.texts := by
  constructor
  · intro h
    rw [extractUsernameFromPath] at h
    split_ifs at h with _ hprefix
    obtain ⟨tail, rfl⟩ := hprefix
    rw [List.drop_left] at h
    cases hv : statsValidateUsername tail with
    | some err => simp [hv] at h
    | none =>
      simp only [hv, Option.some.injEq] at h
      subst h
      exact ⟨rfl, statsValidateUsername_eq_none_iff.1 hv⟩
  · rintro ⟨rfl, hname⟩
    have hne : name ≠ [] := Shape.ne_nil_of_mem_texts hname (by decide)
    have hslash : 0x2F ∉ name := Shape.notMem_of_mem_texts hname (by decide)
    have hv := statsValidateUsername_eq_none_iff.2 hname
    simp [extractUsernameFromPath, hne, hslash, hv]

/-! ## The trip-wires -/

/-- A slug has no control characters. -/
theorem hasControlChars_of_mem_slugs (h : slug ∈ slugs.texts) : hasControlChars slug = false := by
  refine Shape.any_eq_false_of_mem_texts h fun c hc => ?_
  have hc := isValidSlugChar_iff.1 hc
  grind

/-- It has no characters of the markup of HTML. -/
theorem hasHtmlSpecialChars_of_mem_slugs (h : slug ∈ slugs.texts) :
    hasHtmlSpecialChars slug = false := by
  refine Shape.any_eq_false_of_mem_texts h fun c hc => ?_
  have hc := isValidSlugChar_iff.1 hc
  grind

/-- It has none that JSON escapes. -/
theorem hasJsonSpecialChars_of_mem_slugs (h : slug ∈ slugs.texts) :
    hasJsonSpecialChars slug = false := by
  have hls : ¬[0xE2, 0x80, 0xA8] <:+: slug :=
    Shape.not_infix_of_mem_texts h List.mem_cons_self (by decide)
  have hps : ¬[0xE2, 0x80, 0xA9] <:+: slug :=
    Shape.not_infix_of_mem_texts h List.mem_cons_self (by decide)
  rw [hasJsonSpecialChars, Bool.or_eq_false_iff, decide_eq_false_iff_not,
    decide_eq_false_iff_not]
  exact ⟨hls, hps⟩

/-- It has no two dots in a row. -/
theorem dots_notInfix_of_mem_slugs (h : slug ∈ slugs.texts) : ¬bytes ".." <:+: slug :=
  Shape.not_infix_of_mem_texts (c := 0x2E) h (by decide) (by decide)

/-- The trip-wires hold back no slug that the repository would store. -/
theorem parseSlugParam_eq_some_iff : parseSlugParam s = some slug ↔
    s = slug ∧ slug ∈ slugs.texts := by
  constructor
  · intro h
    rw [parseSlugParam] at h
    split_ifs at h
    cases hv : validateSlug s with
    | error err => simp [hv] at h
    | ok u =>
      simp only [hv, Option.some.injEq] at h
      subst h
      exact ⟨rfl, validateSlug_eq_ok_iff.1 hv⟩
  · rintro ⟨rfl, hslug⟩
    have hne : s ≠ [] := Shape.ne_nil_of_mem_texts hslug (by decide)
    have hlen : ¬200 < s.length := by
      have hmax : s.length ≤ 100 := hslug.1.2
      omega
    simp [parseSlugParam, validatePathComponentLen, hne, hlen, dots_notInfix_of_mem_slugs hslug,
      hasControlChars_of_mem_slugs hslug, hasHtmlSpecialChars_of_mem_slugs hslug,
      hasJsonSpecialChars_of_mem_slugs hslug, validateSlug_eq_ok_iff.2 hslug]

/-- The paths from which a slug is taken. -/
theorem extractSlugFromPath_eq_some_iff : extractSlugFromPath path = some slug ↔
    path = problemsPath ++ slug ∧ slug ∈ slugs.texts := by
  constructor
  · intro h
    rw [extractSlugFromPath] at h
    split_ifs at h with _ hprefix
    obtain ⟨tail, rfl⟩ := hprefix
    rw [List.drop_left, parseSlugParam_eq_some_iff] at h
    obtain ⟨rfl, hslug⟩ := h
    exact ⟨rfl, hslug⟩
  · rintro ⟨rfl, hslug⟩
    have hne : slug ≠ [] := Shape.ne_nil_of_mem_texts hslug (by decide)
    have hlen : problemsPath.length < (problemsPath ++ slug).length := by
      rw [List.length_append]
      exact Nat.lt_add_of_pos_right (List.length_pos_iff.2 hne)
    rw [extractSlugFromPath, if_neg (not_le.2 hlen), if_neg (not_not.2 (List.prefix_append _ _)),
      List.drop_left, parseSlugParam_eq_some_iff]
    exact ⟨rfl, hslug⟩

/-- The two routes never disagree on what a slug is. -/
theorem extractSlugFromAdminPath_append (s : Bytes) :
    extractSlugFromAdminPath (adminPath ++ s) = parseSlugParam s := by
  have hlen : (!validatePathComponentLen s) = (s.isEmpty || decide (200 < s.length)) :=
    Bool.not_not _
  rw [extractSlugFromAdminPath, List.drop_left, parseSlugParam, hlen]
  simp only [Bool.or_eq_true, decide_eq_true_eq, ite_or, List.prefix_append, not_true_eq_false,
    if_false]
  split_ifs
  · rfl
  · rfl
  · rfl
  · rfl
  · rfl
  · rfl
  · rfl

/-- Those of the admin. -/
theorem extractSlugFromAdminPath_eq_some_iff : extractSlugFromAdminPath path = some slug ↔
    path = adminPath ++ slug ∧ slug ∈ slugs.texts := by
  constructor
  · intro h
    have hprefix : adminPath <+: path := by
      by_contra hprefix
      rw [extractSlugFromAdminPath, if_pos (.inl hprefix)] at h
      cases h
    obtain ⟨tail, rfl⟩ := hprefix
    rw [extractSlugFromAdminPath_append, parseSlugParam_eq_some_iff] at h
    obtain ⟨rfl, hslug⟩ := h
    exact ⟨rfl, hslug⟩
  · rintro ⟨rfl, hslug⟩
    rw [extractSlugFromAdminPath_append, parseSlugParam_eq_some_iff]
    exact ⟨rfl, hslug⟩

/-- A problem that can be stored has its two addresses. -/
theorem addressed_of_validate {row : ProblemRow} (h : row.validate = .ok ()) :
    extractSlugFromPath (problemsPath ++ row.slug) = some row.slug ∧
      extractSlugFromAdminPath (adminPath ++ row.slug) = some row.slug := by
  have hslug := validateSlug_eq_ok_iff.1 (validate_slug h)
  exact ⟨extractSlugFromPath_eq_some_iff.2 ⟨rfl, hslug⟩,
    extractSlugFromAdminPath_eq_some_iff.2 ⟨rfl, hslug⟩⟩

/-- A user that can log in has a profile page. -/
theorem addressed_of_parseLoginRequest {j : Json} {req : LoginRequest}
    (h : parseLoginRequest j = .ok req) :
    extractUsernameFromPath (profilePath ++ req.username) = some req.username := by
  refine extractUsernameFromPath_eq_some_iff.2 ⟨rfl, validateUsername_eq_none_iff.1 ?_⟩
  rw [parseLoginRequest] at h
  split at h
  · rename_i username _
    cases hv : validateUsername username with
    | some err => simp [hv] at h
    | none =>
      simp only [hv] at h
      split at h
      · split_ifs at h
        cases h
        exact hv
      · cases h
  · cases h

end LiteCode.Validators
