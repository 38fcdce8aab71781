import Mathlib.Data.Fintype.Pi
import LiteCode.Lib.JsonLiteral
import LiteCode.Lib.ListIndex
import LiteCode.Routes.SuperAdmin

/-!
# The profile

`update_profile_handler` of `src/routes/auth_routes.h`, with `update_profile`, `email_exists` and
`find_by_id` of `src/db/user_repo.h`. A body names some of four fields, each with a text, or with
`null` to clear it; a field that it does not name is to keep its value. The statements do not fail,
and the count of an `UPDATE` is that of the rows that it changes.

* a field that is not named comes to `update_profile` as one that is `null`, and the statement
  writes all four columns: what is not named is cleared (`bio_clears`);
* where the values are those of the row already, no row is changed, and the handler answers that
  the e-mail is in use, or that there is no such user;
* `updateProfile_meets_iff`: otherwise the fields that are named are changed and the others kept.
-/

namespace LiteCode.Profile

open UserRepo (Role)
open ErrorHandler
open SuperAdmin (Claims badField parseBody userIdFromClaims)

/-! ## The table -/

/-- The columns of a profile. -/
inductive Column
  | displayName
  | school
  | bio
  | email
  deriving DecidableEq, Repr

/-- The name of a column, which is that of its field. -/
def Column.name : Column → String
  | .displayName => "display_name"
  | .school => "school"
  | .bio => "bio"
  | .email => "email"

instance : Fintype Column where
  elems := {.displayName, .school, .bio, .email}
  complete c := by cases c <;> decide

/-- `UserRow`: what the answer shows of it. -/
structure UserRow where
  id : Int
  username : Bytes
  role : Role
  profile : Column → Option Bytes
  avatar : Option Bytes
  createdAt : Bytes
  lastLogin : Option Bytes
  usernameChangedAt : Option Bytes
  deriving DecidableEq

/-- The table `users`. Two addresses are the same for the database iff they have the same
    weights. -/
structure Table (weight : Bytes → Bytes) where
  users : List UserRow
  ids : (users.map UserRow.id).Nodup
  emails : ∀ q ∈ users, ∀ r ∈ users, (q.profile .email).isSome →
    (q.profile .email).map weight = (r.profile .email).map weight → q.id = r.id

variable {weight : Bytes → Bytes}

namespace Table

/-- `find_by_id`. -/
def findById (t : Table weight) (id : Int) : Option UserRow := t.users.find? fun r => r.id == id

/-- `email_exists`. -/
def emailExists (t : Table weight) (email : Bytes) : Bool :=
  t.users.any fun r => (r.profile .email).map weight == some (weight email)

/-- Another user has the address. -/
def Taken (t : Table weight) (id : Int) (email : Option Bytes) : Prop :=
  ∃ q ∈ t.users, q.id ≠ id ∧ (q.profile .email).isSome ∧
    (q.profile .email).map weight = email.map weight

instance (t : Table weight) (id : Int) (email : Option Bytes) : Decidable (t.Taken id email) :=
  inferInstanceAs (Decidable (∃ _ ∈ _, _))

/-- The rows with the profile of one user changed. -/
def withProfile (t : Table weight) (id : Int)
    (f : (Column → Option Bytes) → Column → Option Bytes) : List UserRow :=
  t.users.map fun r => if r.id = id then { r with profile := f r.profile } else r

theorem ids_withProfile (t : Table weight) (id : Int)
    (f : (Column → Option Bytes) → Column → Option Bytes) :
    ((t.withProfile id f).map UserRow.id).Nodup := by
  rw [withProfile, List.map_map]
  refine (congrArg List.Nodup (List.map_congr_left fun r _ => ?_)).mpr t.ids
  rw [Function.comp_apply]
  split_ifs <;> rfl

theorem emails_withProfile {t : Table weight} {id : Int} {values : Column → Option Bytes}
    (h : ¬t.Taken id (values .email)) :
    ∀ q ∈ t.withProfile id fun _ => values, ∀ r ∈ t.withProfile id fun _ => values,
      (q.profile .email).isSome →
      (q.profile .email).map weight = (r.profile .email).map weight → q.id = r.id := by
  intro q' hq' r' hr' hsome heq
  obtain ⟨q, hq, rfl⟩ := List.mem_map.1 hq'
  obtain ⟨r, hr, rfl⟩ := List.mem_map.1 hr'
  by_cases hqid : q.id = id <;> by_cases hrid : r.id = id <;>
    simp only [hqid, hrid, if_true, if_false] at hsome heq ⊢
  · -- the address of the row that is written is not that of `r`
    have hsome' : (r.profile .email).isSome := by
      rw [← Option.isSome_map (f := weight), ← heq, Option.isSome_map]
      exact hsome
    exact absurd ⟨r, hr, hrid, hsome', heq.symm⟩ h
  · exact absurd ⟨q, hq, hqid, hsome, heq⟩ h
  · exact t.emails q hq r hr hsome heq

/-- `update_profile`: whether a row was changed. A key that refuses the address is `false` as
    well. -/
def updateProfile (t : Table weight) (id : Int) (values : Column → Option Bytes) :
    Bool × Table weight :=
  if h : t.Taken id (values .email) then (false, t)
  else ((t.findById id).any fun r => r.profile ≠ values, {
    users := t.withProfile id fun _ => values
    ids := t.ids_withProfile id fun _ => values
    emails := emails_withProfile h })

end Table

/-! ## The body -/

/-- A text that is longer than `max` bytes. -/
def tooLong (name : String) (max : Nat) : Bytes :=
  bytes name ++ bytes " too long (max " ++ decimal max ++ bytes " chars)"

/-- `validate_display_name`: the error, if there is one. -/
def validateDisplayName (s : Bytes) : Option Bytes :=
  if s.isEmpty then some (bytes "display_name must not be empty (use null to clear)")
  else if 50 < s.length then some (tooLong "display_name" 50)
  else none

/-- `validate_school`. -/
def validateSchool (s : Bytes) : Option Bytes :=
  if 100 < s.length then some (tooLong "school" 100) else none

/-- `validate_bio`. -/
def validateBio (s : Bytes) : Option Bytes :=
  if 500 < s.length then some (tooLong "bio" 500) else none

/-- `validate_email_field`. -/
def validateEmailField (s : Bytes) : Option Bytes :=
  -- `find` gives the length for `npos`
  let sign := s.idxOf 0x40
  let dot := sign + 1 + (s.drop (sign + 1)).idxOf 0x2E
  if s.isEmpty then some (bytes "email must not be empty (use null to clear)")
  else if 100 < s.length then some (tooLong "email" 100)
  else if sign = s.length ∨ sign = 0 ∨ sign = s.length - 1 then
    some (bytes "email missing '@' or local/domain part empty")
  else if dot = s.length ∨ dot = s.length - 1 then
    some (bytes "email domain part missing '.'")
  else none

/-- The check of a field. -/
def Column.validate : Column → Bytes → Option Bytes
  | .displayName => validateDisplayName
  | .school => validateSchool
  | .bio => validateBio
  | .email => validateEmailField

/-- A field of the body: what `update_profile` is given for it. -/
def parseField (j : Json) (c : Column) : Except Envelope (Option Bytes) :=
  match j.get? (bytes c.name) with
  | none | some .null => .ok none
  | some (.str v) =>
    match c.validate v with
    | some err => .error (badField (bytes c.name) err)
    | none => .ok (some v)
  | some _ => .error (badField (bytes c.name) (bytes c.name ++ bytes " must be a string or null"))

/-- The four fields. -/
def parseFields (j : Json) : Except Envelope (Column → Option Bytes) := do
  let displayName ← parseField j .displayName
  let school ← parseField j .school
  let bio ← parseField j .bio
  let email ← parseField j .email
  pure fun
    | .displayName => displayName
    | .school => school
    | .bio => bio
    | .email => email

/-- The checks of `update_profile_handler`: the user id and the four fields. -/
def checkProfile (claims : Claims) (body what : Bytes) :
    Except Envelope (Int × (Column → Option Bytes)) := do
  let id ← userIdFromClaims claims
  match ← parseBody body what with
  | .obj members =>
    let values ← parseFields (.obj members)
    pure (id, values)
  | _ => .error (invalidInput (bytes "body must be a JSON object") [])

/-- A response. -/
inductive Answer
  | error (e : Envelope)
  /-- The user block of the row. -/
  | updated (row : UserRow)
  deriving DecidableEq

/-- `update_profile_handler`, for a token with these claims. -/
def updateProfileHandler (t : Table weight) (claims : Claims) (body what : Bytes) :
    Answer × Table weight :=
  match checkProfile claims body what with
  | .error e => (.error e, t)
  | .ok (id, values) =>
    match t.updateProfile id values with
    | (false, t) =>
      if (values .email).any t.emailExists then
        (.error ⟨409, .conflict, bytes "email already in use", [field (bytes "email")]⟩, t)
      else (.error ⟨404, .notFound, bytes "user not found", []⟩, t)
    | (true, t) =>
      match t.findById id with
      | none => (.error (internalError (bytes "user vanished after update")), t)
      | some row => (.updated row, t)

/-! ## What a body asks for -/

/-- What a body says of a field. -/
inductive Change
  | absent
  | null
  | text (v : Bytes)
  deriving DecidableEq, Repr

/-- The value of a field after a change. -/
def Change.apply (stored : Option Bytes) : Change → Option Bytes
  | .absent => stored
  | .null => none
  | .text v => some v

/-- What is left of a change for `update_profile`. -/
def Change.given : Change → Option Bytes
  | .absent | .null => none
  | .text v => some v

/-- What an object says of a field whose check it passes. -/
def change (j : Json) (c : Column) : Change :=
  match j.get? (bytes c.name) with
  | none => .absent
  | some (.str v) => .text v
  | some _ => .null

/-- The fields are absent, `null`, or texts that pass their checks. -/
def Valid (j : Json) : Prop :=
  ∀ c : Column, ∀ v ∈ j.get? (bytes c.name), v = .null ∨ ∃ s, v = .str s ∧ c.validate s = none

theorem parseField_of_valid {j : Json} (h : Valid j) (c : Column) :
    parseField j c = .ok (change j c).given := by
  rw [parseField, change]
  cases hv : j.get? (bytes c.name) with
  | none => rfl
  | some v =>
    obtain rfl | ⟨s, rfl, hs⟩ := h c v hv
    · rfl
    · simp only [hs, Change.given]

theorem parseFields_of_valid {j : Json} (h : Valid j) :
    parseFields j = .ok fun c => (change j c).given := by
  simp only [parseFields, parseField_of_valid h]
  refine congrArg Except.ok (funext fun c => ?_)
  cases c <;> rfl

/-- A valid body passes the checks. -/
theorem checkProfile_of_valid {claims : Claims} {body : Bytes} (what : Bytes) {id : Int}
    {members : List (Bytes × Json)} (hclaims : userIdFromClaims claims = .ok id)
    (hbody : Json.parse body = some (.obj members)) (h : Valid (.obj members)) :
    checkProfile claims body what = .ok (id, fun c => (change (.obj members) c).given) := by
  have hparse : parseBody body what = .ok (.obj members) := by rw [parseBody, hbody]
  simp only [checkProfile, hclaims, hparse, bind, Except.bind, parseFields_of_valid h]
  rfl

/-- A field loses nothing on the way to `update_profile`, unless it is absent and not `NULL`. -/
theorem given_eq_apply_iff {x : Change} {stored : Option Bytes} :
    x.given = x.apply stored ↔ (x = .absent → stored = none) := by
  cases x with
  | absent => exact ⟨fun h _ => h.symm, fun h => (h rfl).symm⟩
  | null => exact iff_of_true rfl nofun
  | text v => exact iff_of_true rfl nofun

/-! ## Changed, or kept -/

/-- The fields that the body names are changed, the others and the other rows are kept, and the
    answer is a success, whenever no other user has the e-mail; otherwise all rows are kept. -/
structure Meets (t : Table weight) (id : Int) (asked : Column → Change)
    (result : Answer × Table weight) : Prop where
  free : ¬t.Taken id (asked .email).given →
    result.2.users = t.withProfile id (fun stored c => (asked c).apply (stored c)) ∧
      ∃ row, result.1 = .updated row
  taken : t.Taken id (asked .email).given → result.2.users = t.users

/-- Another user has the e-mail; or what the body does not name is `NULL`, and something that it
    names is changed. -/
def Settled (t : Table weight) (r : UserRow) (asked : Column → Change) : Prop :=
  t.Taken r.id (asked .email).given ∨
    (∀ c, asked c = .absent → r.profile c = none) ∧
      ∃ c, asked c ≠ .absent ∧ (asked c).given ≠ r.profile c

instance (t : Table weight) (r : UserRow) (asked : Column → Change) :
    Decidable (Settled t r asked) :=
  inferInstanceAs (Decidable (_ ∨ _))

theorem settled_iff_of_free {t : Table weight} {r : UserRow} {asked : Column → Change}
    (h : ¬t.Taken r.id (asked .email).given) :
    Settled t r asked ↔
      (fun c => (asked c).given) = (fun c => (asked c).apply (r.profile c)) ∧
        r.profile ≠ fun c => (asked c).given := by
  rw [Settled, or_iff_right h]
  simp only [funext_iff, given_eq_apply_iff, Ne, not_forall]
  refine and_congr_right fun hkept => ⟨fun ⟨c, _, hc⟩ => ⟨c, fun h => hc h.symm⟩, ?_⟩
  rintro ⟨c, hc⟩
  refine ⟨c, fun habsent => hc ?_, fun h => hc h.symm⟩
  rw [hkept c habsent, habsent, Change.given]

/-- Two profiles for the row of a user give the same rows only if they are the same. -/
theorem withProfile_inj {t : Table weight} {r : UserRow} (hr : r ∈ t.users)
    {f g : (Column → Option Bytes) → Column → Option Bytes} :
    t.withProfile r.id f = t.withProfile r.id g ↔ f r.profile = g r.profile := by
  rw [Table.withProfile, Table.withProfile, List.map_inj_left]
  refine ⟨fun h => ?_, fun h q hq => ?_⟩
  · have hr' := h r hr
    rw [if_pos rfl, if_pos rfl] at hr'
    exact congrArg UserRow.profile hr'
  · split_ifs with hid
    · rw [List.inj_on_of_nodup_map t.ids hq hr hid, h]
    · rfl

theorem findById_of_mem {t : Table weight} {r : UserRow} (hr : r ∈ t.users) :
    t.findById r.id = some r :=
  (find?_key_eq_some_iff t.ids).2 ⟨hr, rfl⟩

/-- An `UPDATE` that no key refuses: the answer is a success iff a row is changed. -/
theorem updateProfileHandler_of_free {t : Table weight} {claims : Claims} {body what : Bytes}
    {r : UserRow} {values : Column → Option Bytes} (hr : r ∈ t.users)
    (hcheck : checkProfile claims body what = .ok (r.id, values))
    (h : ¬t.Taken r.id (values .email)) :
    (updateProfileHandler t claims body what).2.users = t.withProfile r.id (fun _ => values) ∧
      ((∃ row, (updateProfileHandler t claims body what).1 = .updated row) ↔
        r.profile ≠ values) := by
  have hupdate : t.updateProfile r.id values = (decide (r.profile ≠ values), {
      users := t.withProfile r.id fun _ => values
      ids := t.ids_withProfile r.id fun _ => values
      emails := Table.emails_withProfile h }) := by
    rw [Table.updateProfile, dif_neg h, findById_of_mem hr, Option.any_some]
  simp only [updateProfileHandler, hcheck, hupdate]
  by_cases hchanged : r.profile = values
  · rw [decide_eq_false (not_not.2 hchanged)]
    refine ⟨?_, iff_of_false ?_ (not_not.2 hchanged)⟩ <;> dsimp only <;> split_ifs
    · rfl
    · rfl
    · exact nofun
    · exact nofun
  · rw [decide_eq_true hchanged]
    have hmem : { r with profile := values } ∈ t.withProfile r.id fun _ => values :=
      List.mem_map.2 ⟨r, hr, if_pos rfl⟩
    have hfind := (find?_key_eq_some_iff (t.ids_withProfile r.id fun _ => values)).2 ⟨hmem, rfl⟩
    simp only [Table.findById, hfind, true_and]
    exact iff_of_true ⟨_, rfl⟩ hchanged

/-- A valid body for a user changes the fields that it names, and no others, and is answered with
    success unless another user has the e-mail, exactly if every field that it does not name is
    `NULL`, and it does change one. -/
theorem updateProfile_meets_iff (t : Table weight) (claims : Claims) (body what : Bytes)
    {r : UserRow} {members : List (Bytes × Json)} (hr : r ∈ t.users)
    (hclaims : userIdFromClaims claims = .ok r.id)
    (hbody : Json.parse body = some (.obj members)) (hvalid : Valid (.obj members)) :
    Meets t r.id (change (.obj members)) (updateProfileHandler t claims body what) ↔
      Settled t r (change (.obj members)) := by
  have hcheck := checkProfile_of_valid what hclaims hbody hvalid
  by_cases h : t.Taken r.id (change (.obj members) .email).given
  · -- the key refuses the address
    refine iff_of_true ⟨fun hfree => absurd h hfree, fun _ => ?_⟩ (.inl h)
    simp only [updateProfileHandler, hcheck, Table.updateProfile, dif_pos h]
    split_ifs <;> rfl
  · obtain ⟨husers, hsuccess⟩ := updateProfileHandler_of_free hr hcheck h
    rw [settled_iff_of_free h, ← hsuccess]
    constructor
    · rintro ⟨hfree, -⟩
      obtain ⟨hrows, hupdated⟩ := hfree h
      exact ⟨(withProfile_inj hr).1 (husers.symm.trans hrows), hupdated⟩
    · rintro ⟨hkept, hupdated⟩
      exact ⟨fun _ => ⟨husers.trans ((withProfile_inj hr).2 hkept), hupdated⟩,
        fun htaken => absurd htaken h⟩

/-! ## A profile that loses its e-mail -/

/-- A user with an e-mail, and nothing else. -/
def erin : UserRow where
  id := 3
  username := bytes "erin"
  role := .user
  profile
    | .email => some (bytes "erin@a.org")
    | _ => none
  avatar := none
  createdAt := bytes "2026-01-01 00:00:00"
  lastLogin := none
  usernameChangedAt := none

/-- The table with this user, where addresses are compared byte by byte. -/
def erinTable : Table id where
  users := [erin]
  ids := List.nodup_singleton _
  emails := by decide

/-- The token of the user. -/
def erinClaims : Claims := ⟨bytes "3", bytes "erin", .user⟩

/-- A text without quotes. -/
abbrev Word : Type := {k : Bytes // Json.Plain k}

/-- A body with one field. -/
def oneField (name value : Word) : Json.Literal := .obj [(name, .str value.1 value.2)]

/-- What is read of it. -/
def oneMember (name value : Word) : List (Bytes × Json) := [(name.1, .str value.1)]

theorem parse_oneField (name value : Word) :
    Json.parse (oneField name value).text = some (.obj (oneMember name value)) :=
  Json.Literal.parse_text_obj [(name, .str value.1 value.2)]

theorem valid_oneMember {name value : Word}
    (h : ∀ c : Column, bytes c.name = name.1 → c.validate value.1 = none) :
    Valid (.obj (oneMember name value)) := by
  intro c v hv
  by_cases hc : name.1 = bytes c.name
  · obtain rfl : .str value.1 = v := by simpa [oneMember, Json.get?, hc] using hv
    exact .inr ⟨value.1, rfl, h c hc.symm⟩
  · simp [oneMember, Json.get?, hc] at hv

/-- The request of the user with one field. -/
def erinSends (name value : Word) : Answer × Table id :=
  updateProfileHandler erinTable erinClaims (oneField name value).text []

def bio : Word := ⟨bytes "bio", by decide⟩

def email : Word := ⟨bytes "email", by decide⟩

def oldEmail : Word := ⟨bytes "erin@a.org", by decide⟩

def newEmail : Word := ⟨bytes "erin@b.org", by decide⟩

def hello : Word := ⟨bytes "hello", by decide⟩

/-- Another e-mail is set. -/
theorem updateProfile_meets_erin :
    Meets erinTable 3 (change (.obj (oneMember email newEmail))) (erinSends email newEmail) :=
  (updateProfile_meets_iff erinTable erinClaims (oneField email newEmail).text []
    (List.mem_singleton_self erin) (by decide) (parse_oneField email newEmail)
    (valid_oneMember (by decide))).2 (by decide)

/-- A body with a bio alone clears the e-mail; and the e-mail that the user has already is answered
    with a conflict. -/
theorem bio_clears :
    ((erinSends bio hello).2.findById 3).map (fun r => r.profile .email) = some none ∧
      ¬Meets erinTable 3 (change (.obj (oneMember bio hello))) (erinSends bio hello) ∧
      (erinSends email oldEmail).1 =
        .error ⟨409, .conflict, bytes "email already in use", [field (bytes "email")]⟩ ∧
      ¬Meets erinTable 3 (change (.obj (oneMember email oldEmail))) (erinSends email oldEmail) := by
  have hcleared :
      ((erinSends bio hello).2.findById 3).map (fun r => r.profile .email) = some none := by
    decide +kernel
  have hconflict : (erinSends email oldEmail).1 =
      .error ⟨409, .conflict, bytes "email already in use", [field (bytes "email")]⟩ := by
    decide +kernel
  refine ⟨hcleared, fun h => ?_, hconflict, fun h => ?_⟩
  · have hrows := (h.free (by decide)).1
    rw [Table.findById, hrows] at hcleared
    exact absurd hcleared (by decide)
  · obtain ⟨row, hrow⟩ := (h.free (by decide)).2
    cases hconflict.symm.trans hrow

end LiteCode.Profile
