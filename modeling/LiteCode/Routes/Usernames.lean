import LiteCode.Db.UserRepo
import LiteCode.Lib.System
import LiteCode.Routes.ErrorHandler

/-!
# The names that users have held

`lookup_user_handler` of `src/routes/auth_routes.h`: a name is looked up in the table `users`, and
then in `user_username_history`. Users are registered (`create_user`) and renamed
(`update_username`) one after the other, from an empty history on; `State.held` lists the names
that the users have had.

Each table refuses a name that it has already, but a new name is never compared with the history.
So a user can take a name that another user has given up, and the name then leads to the new
owner. If nobody takes such a name, every name leads to the user that held it (`resolves_of_reach`),
and only then (`free_of_resolves`).
-/

namespace LiteCode.Usernames

open UserRepo ErrorHandler

variable {weight : Bytes → Bytes}

/-! ## The lookup -/

/-- Where a name is found. -/
inductive Via
  | current
  | alias
  deriving DecidableEq, Repr

/-- The answer to a lookup. -/
inductive Answer
  | error (e : Envelope)
  | found (via : Via) (userId : Int) (currentUsername : Bytes)
  deriving DecidableEq, Repr

/-- The user of a name, with the current name: first by the names of the users, then by the old
    names. -/
def lookupUser (t : Tables weight) (username : Bytes) : Option (Via × Int × Bytes) :=
  match t.findByUsername username with
  | some row => some (.current, row.id, row.username)
  | none => (t.findByOldUsername username).map fun hit => (.alias, hit)

/-- `lookup_user_handler`. -/
def lookupUserHandler (t : Tables weight) (username : Bytes) : Answer :=
  if username.isEmpty then
    .error (invalidInput (bytes "missing `username` query parameter") [field (bytes "username")])
  else
    match lookupUser t username with
    | some (via, userId, currentUsername) => .found via userId currentUsername
    | none => .error ⟨404, .notFound, bytes "no such user (and no alias)",
        [.text (bytes "username") username]⟩

/-! ## Registrations and renames -/

/-- The tables, and the names that users have held. -/
structure State (weight : Bytes → Bytes) where
  tables : Tables weight
  held : List (Int × Bytes)

/-- The writes: `create_user` and `update_username`. -/
inductive Action
  | register (username passwordHash : Bytes) (role : Role) (email : Option Bytes)
  | rename (id : Int) (newUsername : Bytes) (now : Int)
  deriving DecidableEq

/-- One write. -/
def step (s : State weight) : Action → Option (State weight)
  | .register username passwordHash role email =>
    let (id, tables) := s.tables.createUser username passwordHash role email
    some ⟨tables, if id = 0 then s.held else s.held ++ [(id, username)]⟩
  | .rename id newUsername now =>
    let (renamed, tables) := s.tables.updateUsername id newUsername now
    some ⟨tables, if renamed then s.held ++ [(id, newUsername)] else s.held⟩

/-- Any users with their names, and no old names. -/
def system (weight : Bytes → Bytes) : System (State weight) Action where
  init s := s.tables.history = [] ∧ s.held = s.tables.users.map fun r => (r.id, r.username)
  step := step

/-- Every name leads to the user that has held it. -/
def Resolves (s : State weight) : Prop :=
  ∀ x ∈ s.held, (lookupUser s.tables x.2).map (fun hit => hit.2.1) = some x.1

/-- The new name is not an old name of another user. -/
def Free (s : State weight) : Action → Prop
  | .register username _ _ _ => ∀ h ∈ s.tables.history, weight h.2 ≠ weight username
  | .rename id newUsername _ =>
    ∀ h ∈ s.tables.history, weight h.2 = weight newUsername → h.1 = id

instance (s : State weight) (a : Action) : Decidable (Free s a) :=
  match a with
  | .register _ _ _ _ => inferInstanceAs (Decidable (∀ h ∈ s.tables.history, _))
  | .rename _ _ _ => inferInstanceAs (Decidable (∀ h ∈ s.tables.history, _))

variable {s s' : State weight} {a : Action}

/-- A name that was held is the name of the user, or an old name of the user. -/
def Known (t : Tables weight) (x : Int × Bytes) : Prop :=
  (∃ r ∈ t.users, r.id = x.1 ∧ weight r.username = weight x.2) ∨
    ∃ h ∈ t.history, h.1 = x.1 ∧ weight h.2 = weight x.2

/-- An old name that is the name of a user is an old name of that user. -/
def Owned (t : Tables weight) : Prop :=
  ∀ h ∈ t.history, ∀ r ∈ t.users, weight r.username = weight h.2 → r.id = h.1

/-- The names that were held, with all that are in the tables. -/
structure Inv (s : State weight) : Prop where
  known : ∀ x ∈ s.held, Known s.tables x
  owned : Owned s.tables
  current : ∀ r ∈ s.tables.users, (r.id, r.username) ∈ s.held
  old : ∀ h ∈ s.tables.history, h ∈ s.held

theorem Inv.resolves (h : Inv s) : Resolves s := by
  intro x hx
  rw [lookupUser]
  cases hrow : s.tables.findByUsername x.2 with
  | some r =>
    obtain ⟨hr, hw⟩ := Tables.findByUsername_eq_some_iff.1 hrow
    rcases h.known x hx with ⟨r', hr', hid, hw'⟩ | ⟨o, ho, hid, hw'⟩
    · rw [Tables.eq_of_name hr hr' (hw.trans hw'.symm), ← hid]
      rfl
    · rw [← hid, ← h.owned o ho r hr (hw.trans hw'.symm)]
      rfl
  | none =>
    rcases h.known x hx with ⟨r, hr, _, hw⟩ | ⟨o, ho, hid, hw⟩
    · exact absurd hw (Tables.findByUsername_eq_none_iff.1 hrow r hr)
    · obtain ⟨r, _, _, hfind⟩ := Tables.findByOldUsername_of_mem ho hw
      simp [hfind, hid]

/-! ## What a write keeps -/

theorem Inv.register {username passwordHash : Bytes} {role : Role} {email : Option Bytes}
    {t : Tables weight} (h : Inv s)
    (hfree : Free s (.register username passwordHash role email))
    (husers : t.users = s.tables.users ++ [s.tables.newRow username passwordHash role email])
    (hhistory : t.history = s.tables.history) :
    Inv ⟨t, s.held ++ [(s.tables.nextId, username)]⟩ where
  known := by
    refine forall_mem_concat (fun x hx => ?_)
      (.inl ⟨_, by rw [husers]; exact List.mem_concat_self, rfl, rfl⟩)
    rcases h.known x hx with ⟨r, hr, hx⟩ | hold
    · exact .inl ⟨r, by simp [husers, hr], hx⟩
    · exact .inr (by rwa [hhistory])
  owned := by
    intro o ho
    rw [hhistory] at ho
    rw [husers]
    exact forall_mem_concat (h.owned o ho) fun hw => absurd hw.symm (hfree o ho)
  current := by
    rw [husers]
    exact forall_mem_concat (fun r hr => List.mem_append_left _ (h.current r hr))
      List.mem_concat_self
  old := by
    intro o ho
    rw [hhistory] at ho
    exact List.mem_append_left _ (h.old o ho)

/-- The current name of a user can be entered as an old one. -/
theorem Inv.halt {r : UserRow} {t : Tables weight} (h : Inv s) (hr : r ∈ s.tables.users)
    (husers : t.users = s.tables.users)
    (hhistory : t.history = s.tables.history ++ [(r.id, r.username)]) : Inv ⟨t, s.held⟩ where
  known := by
    intro x hx
    rcases h.known x hx with ⟨r', hr', hx⟩ | ⟨o, ho, hx⟩
    · exact .inl ⟨r', by rwa [husers], hx⟩
    · exact .inr ⟨o, by simp [hhistory, ho], hx⟩
  owned := by
    rw [Owned, husers, hhistory]
    refine forall_mem_concat h.owned fun r' hr' hw => ?_
    rw [Tables.eq_of_name hr' hr hw]
  current := by
    rw [husers]
    exact h.current
  old := by
    rw [hhistory]
    exact forall_mem_concat h.old (h.current r hr)

theorem Inv.rename {r : UserRow} {newUsername : Bytes} {now : Int} {t : Tables weight} (h : Inv s)
    (hfree : Free s (.rename r.id newUsername now)) (hr : r ∈ s.tables.users)
    (husers : t.users = s.tables.updateRow r.id (Tables.rename newUsername now))
    (hhistory : t.history = s.tables.history ++ [(r.id, r.username)]) :
    Inv ⟨t, s.held ++ [(r.id, newUsername)]⟩ where
  known := by
    refine forall_mem_concat (fun x hx => ?_) (.inl ⟨Tables.rename newUsername now r, ?_, rfl, rfl⟩)
    · rcases h.known x hx with ⟨r', hr', hid, hw⟩ | ⟨o, ho, hx⟩
      · by_cases hself : r'.id = r.id
        · -- the name was the one that the user gives up
          obtain rfl := Tables.eq_of_id hr' hr hself
          exact .inr ⟨_, by rw [hhistory]; exact List.mem_concat_self, hid, hw⟩
        · refine .inl ⟨r', ?_, hid, hw⟩
          rw [husers]
          exact Tables.mem_updateRow.2 ⟨r', hr', if_neg hself⟩
      · exact .inr ⟨o, by simp [hhistory, ho], hx⟩
    · rw [husers]
      exact Tables.mem_updateRow.2 ⟨r, hr, if_pos rfl⟩
  owned := by
    intro o ho r' hr' hw
    rw [husers] at hr'
    rw [hhistory] at ho
    obtain ⟨q, hq, rfl⟩ := Tables.mem_updateRow.1 hr'
    rcases List.mem_append.1 ho with ho | ho
    · split_ifs at hw ⊢ with hself
      · exact hself.trans (hfree o ho hw.symm).symm
      · exact h.owned o ho q hq hw
    · obtain rfl := List.mem_singleton.1 ho
      split_ifs at hw ⊢ with hself
      · exact hself
      · rw [Tables.eq_of_name hq hr hw]
  current := by
    intro r' hr'
    rw [husers] at hr'
    obtain ⟨q, hq, rfl⟩ := Tables.mem_updateRow.1 hr'
    split_ifs with hself
    · exact List.mem_append_right _ (by simp [Tables.rename, hself])
    · exact List.mem_append_left _ (h.current q hq)
  old := by
    rw [hhistory]
    exact forall_mem_concat (fun o ho => List.mem_append_left _ (h.old o ho))
      (List.mem_append_left _ (h.current r hr))

/-- A name that the user has is held already. -/
theorem Inv.again {r : UserRow} (h : Inv s) (hr : r ∈ s.tables.users) :
    Inv ⟨s.tables, s.held ++ [(r.id, r.username)]⟩ where
  known := forall_mem_concat h.known (.inl ⟨r, hr, rfl, rfl⟩)
  owned := h.owned
  current q hq := List.mem_append_left _ (h.current q hq)
  old o ho := List.mem_append_left _ (h.old o ho)

theorem Inv.step (h : Inv s) (hfree : Free s a) (hs : step s a = some s') : Inv s' := by
  cases a with
  | register username passwordHash role email =>
    rw [Usernames.step] at hs
    rcases s.tables.createUser_cases username passwordHash role email with
      heq | ⟨t, heq, husers, hhistory⟩
    · rw [heq] at hs
      cases hs
      exact h
    · rw [heq] at hs
      simp only [if_neg s.tables.nextId_ne_zero, Option.some.injEq] at hs
      rw [← hs]
      exact h.register hfree husers hhistory
  | rename id newUsername now =>
    rw [Usernames.step] at hs
    have hcases := s.tables.updateUsername_renames id newUsername now
    generalize s.tables.updateUsername id newUsername now = result at hs hcases
    cases hcases with
    | same r hr hid hname =>
      cases hs
      rw [← hid, ← hname]
      exact h.again hr
    | refused =>
      cases hs
      exact h
    | halted r t hr hid husers hhistory =>
      cases hs
      rw [← hid] at hhistory
      exact h.halt hr husers hhistory
    | renamed r t hr hid husers hhistory =>
      cases hs
      subst hid
      exact h.rename hfree hr husers hhistory

theorem Inv.init (h : (system weight).init s) : Inv s where
  known := by
    intro x hx
    rw [h.2] at hx
    obtain ⟨r, hr, rfl⟩ := List.mem_map.1 hx
    exact .inl ⟨r, hr, rfl, rfl⟩
  owned := by
    intro o ho
    rw [h.1] at ho
    cases ho
  current := by
    intro r hr
    rw [h.2]
    exact List.mem_map_of_mem hr
  old := by
    intro o ho
    rw [h.1] at ho
    cases ho

theorem inv_of_reach (h : (system weight).Reach Free s) : Inv s :=
  h.invariant (fun _ ht => Inv.init ht) fun _ _ _ ht hg hs => ht.step hg hs

/-- From an empty history on, in every sequence of registrations and renames in which no new name
    is an old name of another user, every name that a user has ever held leads to that user. -/
theorem resolves_of_reach (weight : Bytes → Bytes) (s : State weight)
    (h : (system weight).Reach Free s) : Resolves s :=
  (inv_of_reach h).resolves

/-- A name that was held and is the name of a user leads to that user only. -/
theorem Resolves.eq_id {x : Int × Bytes} {r : UserRow} (h : Resolves s) (hx : x ∈ s.held)
    (hr : r ∈ s.tables.users) (hw : weight r.username = weight x.2) : r.id = x.1 := by
  have hlookup := h x hx
  rw [lookupUser, Tables.findByUsername_eq_some_iff.2 ⟨hr, hw⟩] at hlookup
  simpa using hlookup

/-- The first registration or rename with a name that is an old name of another user makes that
    name lead to the wrong user. -/
theorem free_of_resolves (h : (system weight).Reach Free s) (hs : step s a = some s')
    (hdone : s'.held ≠ s.held) (hres : Resolves s') : Free s a := by
  have hinv := inv_of_reach h
  cases a with
  | register username passwordHash role email =>
    rw [step] at hs
    rcases s.tables.createUser_cases username passwordHash role email with
      heq | ⟨t, heq, husers, hhistory⟩
    · rw [heq] at hs
      cases hs
      exact absurd rfl hdone
    · rw [heq] at hs
      simp only [if_neg s.tables.nextId_ne_zero, Option.some.injEq] at hs
      subst hs
      intro o ho hw
      -- the new user would have an id that is there already
      have hnew : s.tables.nextId = o.1 := hres.eq_id (List.mem_append_left _ (hinv.old o ho))
        (by rw [husers]; exact List.mem_concat_self) hw.symm
      obtain ⟨r, hr, hid⟩ := s.tables.owners o ho
      have hlt := (s.tables.ids_lt r hr).2
      omega
  | rename id newUsername now =>
    rw [step] at hs
    have hcases := s.tables.updateUsername_renames id newUsername now
    generalize s.tables.updateUsername id newUsername now = result at hs hcases
    intro o ho hw
    cases hcases with
    | same r hr hid hname =>
      subst hname
      rw [← hid, hinv.owned o ho r hr hw.symm]
    | refused =>
      cases hs
      exact absurd rfl hdone
    | halted r t hr hid husers hhistory =>
      cases hs
      exact absurd rfl hdone
    | renamed r t hr hid husers hhistory =>
      cases hs
      refine (hres.eq_id (List.mem_append_left _ (hinv.old o ho))
        (r := Tables.rename newUsername now r) ?_ hw.symm).symm.trans hid
      rw [husers]
      exact Tables.mem_updateRow.2 ⟨r, hr, if_pos hid⟩

/-- No users. -/
def noUsers (weight : Bytes → Bytes) : Tables weight where
  users := []
  history := []
  nextId := 1
  ids := List.nodup_nil
  ids_lt _ hr := absurd hr List.not_mem_nil
  nextId_le := by decide
  names := List.nodup_nil
  oldNames := List.nodup_nil
  owners _ hh := absurd hh List.not_mem_nil

/-- A user gives up a name and takes it back, and another one is registered. -/
theorem resolves_of_reach_alice : ∃ s : State id, s.held.map Prod.fst = [1, 1, 1, 2] ∧
    s.tables.history.map Prod.fst = [1, 1] ∧ Resolves s := by
  obtain ⟨s, hl, hs⟩ := System.exists_exec_of_runGuarded (S := system id) (G := Free)
    (s := ⟨noUsers id, []⟩)
    (l := [.register (bytes "alice") [] .user none, .rename 1 (bytes "bob") 100,
      .rename 1 (bytes "alice") 86500, .register (bytes "carol") [] .user none])
    (p := fun s => s.held.map Prod.fst = [1, 1, 1, 2] ∧ s.tables.history.map Prod.fst = [1, 1])
    (by decide +kernel)
  obtain ⟨hheld, hhistory⟩ := of_decide_eq_true hs
  exact ⟨s, hheld, hhistory, resolves_of_reach id s ⟨_, _, ⟨rfl, rfl⟩, hl⟩⟩

/-- A user gives up a name, and another one takes it: the name leads to the other one. -/
theorem not_resolves_taken : ∃ s : State id, (system id).Reach System.Always s ∧
    (1, bytes "alice") ∈ s.held ∧
    lookupUserHandler s.tables (bytes "alice") = .found .current 2 (bytes "alice") ∧
    ¬ Resolves s := by
  obtain ⟨s, hl, hs⟩ := System.exists_exec_of_run (S := system id) (s := ⟨noUsers id, []⟩)
    (l := [.register (bytes "alice") [] .user none, .rename 1 (bytes "bob") 100,
      .register (bytes "alice") [] .user none])
    (p := fun s => (1, bytes "alice") ∈ s.held ∧
      lookupUserHandler s.tables (bytes "alice") = .found .current 2 (bytes "alice") ∧
      (lookupUser s.tables (bytes "alice")).map (fun hit => hit.2.1) = some 2) (by decide +kernel)
  obtain ⟨hheld, hanswer, hlookup⟩ := of_decide_eq_true hs
  refine ⟨s, ⟨_, _, ⟨rfl, rfl⟩, hl⟩, hheld, hanswer, fun h => ?_⟩
  have hres := h _ hheld
  rw [hlookup] at hres
  cases hres

end LiteCode.Usernames
