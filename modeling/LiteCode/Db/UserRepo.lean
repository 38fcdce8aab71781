import Mathlib.Algebra.Group.Int.Defs
import Mathlib.Data.List.Nodup
import LiteCode.Lib.Bytes
import LiteCode.Lib.ListIndex

/-!
# The table of users

`src/db/user_repo.h`: the tables `users` and `user_username_history` with the statements that
read and write them. Names are compared by the collation of the columns: two names are the same
for the database iff they have the same weights, and `weight` is a parameter.

`update_username` is two writes without a transaction. When the second one is refused, the old
name stays in the history. A statement that fails is taken to have had no effect: no reply of the
database is lost.

* `Tables`: the rows, with the keys that the database enforces;
* `mem_updateRow`, `mem_createUser`: the rows after a write.
-/

namespace LiteCode.UserRepo

/-- The column `role`. -/
inductive Role
  | user
  | admin
  deriving DecidableEq, Repr

/-- The name of a role. -/
def Role.name : Role → Bytes
  | .user => bytes "user"
  | .admin => bytes "admin"

/-- `UserRow`: what the modelled functions read of it. -/
structure UserRow where
  id : Int
  username : Bytes
  passwordHash : Bytes
  role : Role
  email : Option Bytes
  /-- In seconds. -/
  usernameChangedAt : Option Int
  deriving DecidableEq, Repr

/-- The tables `users` and `user_username_history`, the latter as pairs of a user and an old name.
    `nextId` is the counter of `AUTO_INCREMENT`. -/
structure Tables (weight : Bytes → Bytes) where
  users : List UserRow
  history : List (Int × Bytes)
  nextId : Int
  ids : (users.map UserRow.id).Nodup
  ids_lt : ∀ r ∈ users, 0 < r.id ∧ r.id < nextId
  nextId_le : 0 < nextId ∧ nextId ≤ 2 ^ 31
  names : (users.map fun r => weight r.username).Nodup
  oldNames : (history.map fun h => weight h.2).Nodup
  owners : ∀ h ∈ history, ∃ r ∈ users, r.id = h.1

variable {weight : Bytes → Bytes}

namespace Tables

/-- `find_by_id`. -/
def findById (t : Tables weight) (id : Int) : Option UserRow := t.users.find? fun r => r.id == id

/-- `find_by_username`. -/
def findByUsername (t : Tables weight) (username : Bytes) : Option UserRow :=
  t.users.find? fun r => weight r.username == weight username

/-- `username_exists`. -/
def usernameExists (t : Tables weight) (username : Bytes) : Bool :=
  t.users.any fun r => weight r.username == weight username

/-- `find_by_old_username`: the user, and the current name. -/
def findByOldUsername (t : Tables weight) (oldUsername : Bytes) : Option (Int × Bytes) :=
  (t.history.find? fun h => weight h.2 == weight oldUsername).bind fun h =>
    (t.findById h.1).map fun r => (h.1, r.username)

/-- The row that `create_user` inserts. -/
def newRow (t : Tables weight) (username passwordHash : Bytes) (role : Role)
    (email : Option Bytes) : UserRow :=
  ⟨t.nextId, username, passwordHash, role, email, none⟩

/-- The keys admit a new row: the name and the address are free, and so is the id. -/
def Admits (t : Tables weight) (username : Bytes) (email : Option Bytes) : Prop :=
  (∀ r ∈ t.users, weight r.username ≠ weight username) ∧
  (∀ e ∈ email, ∀ r ∈ t.users, r.email.map weight ≠ some (weight e)) ∧ t.nextId < 2 ^ 31

instance (t : Tables weight) (username : Bytes) (email : Option Bytes) :
    Decidable (t.Admits username email) :=
  inferInstanceAs (Decidable (_ ∧ _))

/-- A new row has an id of its own. -/
theorem nodup_ids_newRow (t : Tables weight) (username passwordHash : Bytes) (role : Role)
    (email : Option Bytes) :
    ((t.users ++ [t.newRow username passwordHash role email]).map UserRow.id).Nodup :=
  nodup_map_concat t.ids fun r hr => Int.ne_of_lt (t.ids_lt r hr).2

theorem ids_lt_newRow (t : Tables weight) (username passwordHash : Bytes) (role : Role)
    (email : Option Bytes) :
    ∀ r ∈ t.users ++ [t.newRow username passwordHash role email],
      0 < r.id ∧ r.id < t.nextId + 1 := by
  refine forall_mem_concat (fun r hr => ?_) ⟨t.nextId_le.1, Int.lt_succ _⟩
  have := t.ids_lt r hr
  omega

/-- It has a name of its own, if the table admits it. -/
theorem nodup_names_newRow (t : Tables weight) {username : Bytes} (passwordHash : Bytes)
    (role : Role) {email : Option Bytes} (h : t.Admits username email) :
    ((t.users ++ [t.newRow username passwordHash role email]).map
      fun r => weight r.username).Nodup :=
  nodup_map_concat t.names h.1

/-- The ids stay in the range of the column. -/
theorem nextId_add_one_le {t : Tables weight} {username : Bytes} {email : Option Bytes}
    (h : t.Admits username email) : 0 < t.nextId + 1 ∧ t.nextId + 1 ≤ 2 ^ 31 := by
  have h₁ := t.nextId_le
  have h₂ := h.2.2
  omega

/-- The users of a history are still there. -/
theorem owners_newRow (t : Tables weight) (row : UserRow) :
    ∀ x ∈ t.history, ∃ r ∈ t.users ++ [row], r.id = x.1 := by
  intro x hx
  obtain ⟨r, hr, hid⟩ := t.owners x hx
  exact ⟨r, List.mem_append_left _ hr, hid⟩

/-- `create_user`: the new id, or zero if a key refuses the row. -/
def createUser (t : Tables weight) (username passwordHash : Bytes) (role : Role)
    (email : Option Bytes) : Int × Tables weight :=
  if h : t.Admits username email then
    (t.nextId, {
      users := t.users ++ [t.newRow username passwordHash role email]
      history := t.history
      nextId := t.nextId + 1
      ids := t.nodup_ids_newRow username passwordHash role email
      ids_lt := t.ids_lt_newRow username passwordHash role email
      nextId_le := nextId_add_one_le h
      names := t.nodup_names_newRow passwordHash role h
      oldNames := t.oldNames
      owners := t.owners_newRow _ })
  else (0, t)

/-- The rows with the one of a user changed. -/
def updateRow (t : Tables weight) (id : Int) (f : UserRow → UserRow) : List UserRow :=
  t.users.map fun r => if r.id = id then f r else r

/-- The rows after an `UPDATE` of one row. -/
theorem mem_updateRow {t : Tables weight} {id : Int} {f : UserRow → UserRow} {r' : UserRow} :
    r' ∈ t.updateRow id f ↔ ∃ r ∈ t.users, (if r.id = id then f r else r) = r' :=
  List.mem_map

/-- A column that the update does not set. -/
theorem map_updateRow {β : Type} (t : Tables weight) (id : Int) (f : UserRow → UserRow)
    (g : UserRow → β) (hg : ∀ r, g (f r) = g r) : (t.updateRow id f).map g = t.users.map g := by
  rw [updateRow, List.map_map]
  refine List.map_congr_left fun r _ => ?_
  rw [Function.comp_apply]
  split_ifs
  · exact hg r
  · rfl

/-- An `UPDATE` of the row of a user that keeps its id. -/
def update (t : Tables weight) (id : Int) (f : UserRow → UserRow) (hid : ∀ r, (f r).id = r.id)
    (hnames : ((t.updateRow id f).map fun r => weight r.username).Nodup) : Tables weight where
  users := t.updateRow id f
  history := t.history
  nextId := t.nextId
  ids := by
    rw [t.map_updateRow id f UserRow.id hid]
    exact t.ids
  ids_lt := by
    intro r' hr'
    obtain ⟨r, hr, rfl⟩ := mem_updateRow.1 hr'
    have := t.ids_lt r hr
    split_ifs
    · rw [hid]
      exact this
    · exact this
  nextId_le := t.nextId_le
  names := hnames
  oldNames := t.oldNames
  owners := by
    intro h hh
    obtain ⟨r, hr, hrid⟩ := t.owners h hh
    refine ⟨_, mem_updateRow.2 ⟨r, hr, rfl⟩, ?_⟩
    split_ifs
    · rw [hid, hrid]
    · exact hrid

/-- The row of a user with a new role. -/
def setRole (role : Role) (r : UserRow) : UserRow := { r with role }

/-- A role changes no name. -/
theorem nodup_setRole (t : Tables weight) (id : Int) (role : Role) :
    ((t.updateRow id (setRole role)).map fun r => weight r.username).Nodup := by
  rw [t.map_updateRow id (setRole role) (fun r => weight r.username) fun _ => rfl]
  exact t.names

/-- `update_role`: whether a row was changed. -/
def updateRole (t : Tables weight) (id : Int) (role : Role) : Bool × Tables weight :=
  ((t.findById id).any fun r => r.role ≠ role,
    t.update id (setRole role) (fun _ => rfl) (t.nodup_setRole id role))

/-- `INSERT INTO user_username_history`: refused when the name or no such user is there. -/
def insertHistory (t : Tables weight) (id : Int) (oldUsername : Bytes) : Option (Tables weight) :=
  if h : (∀ x ∈ t.history, weight x.2 ≠ weight oldUsername) ∧ ∃ r ∈ t.users, r.id = id then
    some {
      users := t.users
      history := t.history ++ [(id, oldUsername)]
      nextId := t.nextId
      ids := t.ids
      ids_lt := t.ids_lt
      nextId_le := t.nextId_le
      names := t.names
      oldNames := by
        rw [List.map_append]
        refine t.oldNames.append (List.nodup_singleton _) fun w hw hw' => ?_
        obtain ⟨x, hx, rfl⟩ := List.mem_map.1 hw
        exact h.1 x hx (List.mem_singleton.1 hw')
      owners := by
        intro x hx
        rcases List.mem_append.1 hx with hx | hx
        · exact t.owners x hx
        · obtain rfl := List.mem_singleton.1 hx
          exact h.2 }
  else none

/-- The row of a user with a new name. -/
def rename (newUsername : Bytes) (now : Int) (r : UserRow) : UserRow :=
  { r with username := newUsername, usernameChangedAt := some now }

/-- A name that no other user has can be given to a user. -/
theorem nodup_rename (t : Tables weight) {id : Int} {newUsername : Bytes} (now : Int)
    (h : ∀ r ∈ t.users, r.id ≠ id → weight r.username ≠ weight newUsername) :
    ((t.updateRow id (rename newUsername now)).map fun r => weight r.username).Nodup := by
  rw [updateRow, List.map_map]
  have hids := List.pairwise_map.1 t.ids
  have hnames := List.pairwise_map.1 t.names
  refine List.pairwise_map.2 ((hids.and hnames).imp_of_mem ?_)
  rintro a b ha hb ⟨hid, hname⟩
  simp only [Function.comp_apply]
  split_ifs with haid hbid hbid
  · exact absurd (haid.trans hbid.symm) hid
  · exact (h b hb hbid).symm
  · exact h a ha haid
  · exact hname

/-- `UPDATE users SET username = ?, username_changed_at = NOW()`: whether a row was changed, or
    refused when another user has the name. -/
def setUsername (t : Tables weight) (id : Int) (newUsername : Bytes) (now : Int) :
    Option (Bool × Tables weight) :=
  if h : ∀ r ∈ t.users, r.id ≠ id → weight r.username ≠ weight newUsername then
    some ((t.findById id).any fun r => r ≠ rename newUsername now r,
      t.update id (rename newUsername now) (fun _ => rfl) (t.nodup_rename now h))
  else none

/-- `update_username`, with its statements one after the other. -/
def updateUsername (t : Tables weight) (id : Int) (newUsername : Bytes) (now : Int) :
    Bool × Tables weight :=
  match t.findById id with
  | none => (false, t)
  | some r =>
    if r.username = newUsername then (true, t)
    else match t.insertHistory id r.username with
      | none => (false, t)
      | some t' =>
        match t'.setUsername id newUsername now with
        | none => (false, t')
        | some (changed, t') => (changed, t')

/-! ## The rows -/

variable {t : Tables weight} {id : Int} {name : Bytes} {r r' : UserRow}

theorem nextId_ne_zero (t : Tables weight) : t.nextId ≠ 0 := by
  have := t.nextId_le
  omega

/-- The id is a key. -/
theorem eq_of_id (hr : r ∈ t.users) (hr' : r' ∈ t.users) (h : r.id = r'.id) : r = r' :=
  List.inj_on_of_nodup_map t.ids hr hr' h

/-- So is the name, up to the collation. -/
theorem eq_of_name (hr : r ∈ t.users) (hr' : r' ∈ t.users)
    (h : weight r.username = weight r'.username) : r = r' :=
  List.inj_on_of_nodup_map t.names hr hr' h

theorem findById_eq_some_iff : t.findById id = some r ↔ r ∈ t.users ∧ r.id = id :=
  find?_key_eq_some_iff t.ids

/-- An `UPDATE` is seen by the next `find_by_id`. -/
theorem findById_update (f : UserRow → UserRow) (hid : ∀ r, (f r).id = r.id)
    (hnames : ((t.updateRow id f).map fun r => weight r.username).Nodup) (id' : Int) :
    (t.update id f hid hnames).findById id' =
      (t.findById id').map fun r => if r.id = id then f r else r := by
  have hcomp : ((fun r : UserRow => r.id == id') ∘ fun r => if r.id = id then f r else r) =
      fun r => r.id == id' := by
    funext r
    rw [Function.comp_apply]
    split_ifs
    · rw [hid]
    · rfl
  simp only [findById, update, updateRow, List.find?_map, hcomp]

/-- A new role is seen by the next `find_by_id`. -/
theorem findById_updateRole (id' : Int) (role : Role) : (t.updateRole id role).2.findById id' =
    (t.findById id').map fun r => if r.id = id then setRole role r else r :=
  findById_update (setRole role) (fun _ => rfl) (t.nodup_setRole id role) id'

theorem findByUsername_eq_some_iff :
    t.findByUsername name = some r ↔ r ∈ t.users ∧ weight r.username = weight name :=
  find?_key_eq_some_iff t.names

/-- No row is found if no name has the weight of that one. -/
theorem findByUsername_eq_none_iff :
    t.findByUsername name = none ↔ ∀ r ∈ t.users, weight r.username ≠ weight name := by
  simp [findByUsername, List.find?_eq_none]

/-- An old name leads to its user. -/
theorem findByOldUsername_of_mem {h : Int × Bytes} (hh : h ∈ t.history)
    (hw : weight h.2 = weight name) :
    ∃ r ∈ t.users, r.id = h.1 ∧ t.findByOldUsername name = some (h.1, r.username) := by
  obtain ⟨r, hr, hid⟩ := t.owners h hh
  refine ⟨r, hr, hid, ?_⟩
  have hfind : (t.history.find? fun h => weight h.2 == weight name) = some h :=
    (find?_key_eq_some_iff t.oldNames).2 ⟨hh, hw⟩
  rw [findByOldUsername, hfind, Option.bind_some, findById_eq_some_iff.2 ⟨hr, hid⟩,
    Option.map_some]

/-! ## The writes -/

/-- `create_user` makes a row with a new id, or makes nothing. -/
theorem createUser_cases (t : Tables weight) (username passwordHash : Bytes) (role : Role)
    (email : Option Bytes) :
    t.createUser username passwordHash role email = (0, t) ∨
    ∃ t', t.createUser username passwordHash role email = (t.nextId, t') ∧
      t'.users = t.users ++ [t.newRow username passwordHash role email] ∧
      t'.history = t.history := by
  rw [createUser]
  split_ifs
  · exact .inr ⟨_, rfl, rfl, rfl⟩
  · exact .inl rfl

/-- The history gets one entry, and the users stay. -/
theorem insertHistory_eq_some {oldUsername : Bytes} {t' : Tables weight}
    (h : t.insertHistory id oldUsername = some t') :
    t'.users = t.users ∧ t'.history = t.history ++ [(id, oldUsername)] := by
  rw [insertHistory] at h
  split_ifs at h
  cases h
  exact ⟨rfl, rfl⟩

/-- The name is written to the row of the id, and the history stays. -/
theorem setUsername_eq_some {newUsername : Bytes} {now : Int} {changed : Bool} {t' : Tables weight}
    (h : t.setUsername id newUsername now = some (changed, t')) :
    t'.users = t.updateRow id (rename newUsername now) ∧ t'.history = t.history ∧
      changed = (t.findById id).any fun r => r ≠ rename newUsername now r := by
  rw [setUsername] at h
  split_ifs at h
  cases h
  exact ⟨rfl, rfl, rfl⟩

/-- What `update_username` can do. -/
inductive Renames (t : Tables weight) (id : Int) (newUsername : Bytes) (now : Int) :
    Bool × Tables weight → Prop
  /-- The user has the name already. -/
  | same (r : UserRow) (hr : r ∈ t.users) (hid : r.id = id) (hname : r.username = newUsername) :
      Renames t id newUsername now (true, t)
  /-- There is no such user, or the old name is in the history. -/
  | refused : Renames t id newUsername now (false, t)
  /-- The old name is in the history now, and the new name is refused. -/
  | halted (r : UserRow) (t' : Tables weight) (hr : r ∈ t.users) (hid : r.id = id)
      (husers : t'.users = t.users) (hhistory : t'.history = t.history ++ [(id, r.username)]) :
      Renames t id newUsername now (false, t')
  /-- The user has the new name. -/
  | renamed (r : UserRow) (t' : Tables weight) (hr : r ∈ t.users) (hid : r.id = id)
      (husers : t'.users = t.updateRow id (rename newUsername now))
      (hhistory : t'.history = t.history ++ [(id, r.username)]) :
      Renames t id newUsername now (true, t')

/-- `update_username` does what `Renames` says. -/
theorem updateUsername_renames (t : Tables weight) (id : Int) (newUsername : Bytes) (now : Int) :
    Renames t id newUsername now (t.updateUsername id newUsername now) := by
  rw [updateUsername]
  cases hrow : t.findById id with
  | none => exact .refused
  | some r =>
    obtain ⟨hr, hid⟩ := findById_eq_some_iff.1 hrow
    dsimp only
    split_ifs with hname
    · exact .same r hr hid hname
    · cases hins : t.insertHistory id r.username with
      | none => exact .refused
      | some t' =>
        obtain ⟨husers, hhistory⟩ := insertHistory_eq_some hins
        have hrow' : t'.findById id = some r := by rw [findById, husers, ← findById, hrow]
        dsimp only
        cases hset : t'.setUsername id newUsername now with
        | none => exact .halted r t' hr hid husers hhistory
        | some x =>
          obtain ⟨changed, t''⟩ := x
          obtain ⟨husers', hhistory', hchanged⟩ := setUsername_eq_some hset
          -- the row is changed, since the name is another one
          have hne : r ≠ rename newUsername now r := fun h => hname (congrArg UserRow.username h)
          have htrue : changed = true := by rw [hchanged, hrow']; simpa using hne
          rw [htrue]
          refine .renamed r t'' hr hid ?_ (hhistory'.trans hhistory)
          rw [husers', updateRow, husers, updateRow]

/-- An entry is refused if the history has the name already. -/
theorem insertHistory_eq_none_iff {oldUsername : Bytes} (h : ∃ r ∈ t.users, r.id = id) :
    t.insertHistory id oldUsername = none ↔ ∃ x ∈ t.history, weight x.2 = weight oldUsername := by
  rw [insertHistory]
  split_ifs with hfree
  · refine iff_of_false nofun ?_
    rintro ⟨x, hx, hw⟩
    exact hfree.1 x hx hw
  · refine iff_of_true rfl ?_
    by_contra hnot
    exact hfree ⟨fun x hx hw => hnot ⟨x, hx, hw⟩, h⟩

/-- The users after `update_username`. -/
theorem users_updateUsername (t : Tables weight) (id : Int) (newUsername : Bytes) (now : Int) :
    (t.updateUsername id newUsername now).2.users =
      match t.findById id with
      | none => t.users
      | some r =>
        if r.username ≠ newUsername ∧ (∀ x ∈ t.history, weight x.2 ≠ weight r.username) ∧
            ∀ q ∈ t.users, q.id ≠ id → weight q.username ≠ weight newUsername then
          t.updateRow id (rename newUsername now)
        else t.users := by
  rw [updateUsername]
  cases hrow : t.findById id with
  | none => rfl
  | some r =>
    have hid : ∃ r ∈ t.users, r.id = id := ⟨r, findById_eq_some_iff.1 hrow⟩
    dsimp only
    by_cases hname : r.username = newUsername
    · rw [if_pos hname, if_neg fun h => h.1 hname]
    rw [if_neg hname]
    by_cases hold : ∀ x ∈ t.history, weight x.2 ≠ weight r.username
    · rw [insertHistory, dif_pos ⟨hold, hid⟩]
      dsimp only
      by_cases hfree : ∀ q ∈ t.users, q.id ≠ id → weight q.username ≠ weight newUsername
      · rw [if_pos ⟨hname, hold, hfree⟩, setUsername, dif_pos hfree]
        rfl
      · rw [if_neg fun h => hfree h.2.2, setUsername, dif_neg hfree]
    · rw [if_neg fun h => hold h.2.1, insertHistory, dif_neg fun h => hold h.1]

theorem nextId_insertHistory {oldUsername : Bytes} {t' : Tables weight}
    (h : t.insertHistory id oldUsername = some t') : t'.nextId = t.nextId := by
  rw [insertHistory] at h
  split_ifs at h
  cases h
  rfl

end Tables

end LiteCode.UserRepo
