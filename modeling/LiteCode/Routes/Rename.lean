import LiteCode.Routes.SuperAdmin

/-!
# One change of a name

A request of `update_username_handler`, statement by statement, from any tables on: the statements
are those of `LiteCode.Routes.SuperAdmin`, any of them may fail, and another user may take a name
before the last one. The current name is entered into the history, and then the name is changed;
there is no transaction.

* a name that the user had before is in the history, and cannot be entered again: a user who goes
  back to it can never change it (`spent_refused`);
* when the last statement fails, the current name stays in the history, and the user is in the same
  place;
* `rename_meets_iff`: otherwise a change that may be made is made, and one that is not made leaves
  the tables as they were.
-/

namespace LiteCode.Rename

open UserRepo ErrorHandler SuperAdmin

variable {srv : Server}

/-! ## A request -/

/-- What another user does: a registration, or a change of the name. -/
inductive Rival
  | register (username passwordHash : Bytes) (role : Role) (email : Option Bytes)
  | rename (id : Int) (newUsername : Bytes) (now : Int)
  deriving DecidableEq, Repr

/-- The write of a rival of the user `id`. -/
def Rival.act {weight : Bytes → Bytes} (id : Int) (t : Tables weight) : Rival → Tables weight
  | .register username passwordHash role email => (t.createUser username passwordHash role email).2
  | .rename id' newUsername now =>
    if id' = id then t else (t.updateUsername id' newUsername now).2

/-- What a request meets: the time, the statements that fail, and a rival before the `UPDATE`. -/
structure Env where
  now : Int
  finding : Option Bytes
  existing : Option Bytes
  reading : Option Bytes
  entering : Option Bytes
  setting : Option Bytes
  rival : Option Rival
  deriving DecidableEq, Repr

/-- The statement that comes next, if it fails. -/
def Env.fault (env : Env) : Pc → Option Bytes
  | .finding _ _ => env.finding
  | .existing _ _ => env.existing
  | .reading _ _ => env.reading
  | .entering _ _ _ => env.entering
  | .setting _ _ => env.setting
  | _ => none

def Env.outcome (env : Env) (pc : Pc) : Outcome :=
  match env.fault pc with
  | some what => .failed what
  | none => .ok

/-- The tables after the rival. -/
def Env.disturb {weight : Bytes → Bytes} (env : Env) (id : Int) (t : Tables weight) :
    Tables weight :=
  match env.rival with
  | some rival => rival.act id t
  | none => t

/-- The next statement of the only request. -/
def stage (env : Env) (s : State srv) : State srv :=
  match s.calls with
  | [pc] =>
    let s := match pc with
      | .setting row _ => { s with tables := env.disturb row.id s.tables }
      | _ => s
    (advance s 0 (env.outcome pc) env.now pc).getD s
  | _ => s

/-- `update_username_handler`, for a token with these claims: the checks, and five statements at
    most. -/
def updateUsernameHandler (srv : Server) (env : Env) (t : Tables srv.weight) (claims : Claims)
    (body what : Bytes) : State srv :=
  (stage env)^[5] ⟨t, [], [], [beginRename (some claims) body what]⟩

/-! ## What a request does -/

variable {env : Env} {t : Tables srv.weight} {claims : Claims} {body what newUsername : Bytes}
  {id : Int} {r : UserRow}

/-- The state of a request at `pc`. -/
def atPc (t : Tables srv.weight) (pc : Pc) : State srv := ⟨t, [], [], [pc]⟩

/-- An answered request makes no more statements. -/
theorem iterate_answered (t : Tables srv.weight) (a : Answer) (n : Nat) :
    (stage env)^[n] (atPc t (.answered a)) = atPc t (.answered a) := by
  have hfix : stage env (atPc t (.answered a)) = atPc t (.answered a) := rfl
  exact Function.iterate_fixed hfix n

/-- The next point of a request whose statement may fail. -/
def orException (fault : Option Bytes) (pc : Pc) : Pc :=
  match fault with
  | some what => .answered (.exception what)
  | none => pc

/-- Within `n` statements the request is answered, with an answer that satisfies `P`, and the tables
    are `t`. -/
def Ends (env : Env) (t : Tables srv.weight) (n : Nat) (s : State srv) (P : Answer → Prop) : Prop :=
  ∃ a, (stage env)^[n] s = atPc t (.answered a) ∧ P a

theorem ends_answered {a : Answer} {P : Answer → Prop} (n : Nat) (h : P a) :
    Ends env t n (atPc t (.answered a)) P :=
  ⟨a, iterate_answered t a n, h⟩

theorem ends_of_stage {s : State srv} {n : Nat} {fault : Option Bytes} {pc : Pc}
    {P : Answer → Prop} (hs : stage env s = atPc t (orException fault pc))
    (hexception : ∀ w, P (.exception w)) (hnext : fault = none → Ends env t n (atPc t pc) P) :
    Ends env t (n + 1) s P := by
  rw [Ends, Function.iterate_succ_apply, hs]
  cases fault with
  | some w => exact ends_answered n (hexception w)
  | none => exact hnext rfl

theorem stage_finding (hrow : t.findById id = some r) :
    stage env (atPc t (.finding id newUsername)) = atPc t (orException env.finding
      (if r.username = newUsername then .answered (.renamed newUsername none)
      else match retryAfter r env.now with
        | some n => .answered (tooSoon n)
        | none => .existing r newUsername)) := by
  cases hf : env.finding with
  | some what =>
    simp [atPc, stage, Env.outcome, Env.fault, hf, advance, Pc.failed, State.goto, orException]
  | none =>
    simp only [atPc, stage, Env.outcome, Env.fault, hf, advance, proceed, hrow, State.goto,
      orException]
    split_ifs
    · rfl
    · cases retryAfter r env.now <;> rfl

theorem stage_existing :
    stage env (atPc t (.existing r newUsername)) = atPc t (orException env.existing
      (if t.usernameExists newUsername then
        .answered (nameConflict (bytes "username already taken"))
      else .reading r newUsername)) := by
  cases hf : env.existing with
  | some what =>
    simp [atPc, stage, Env.outcome, Env.fault, hf, advance, Pc.failed, State.goto, orException]
  | none =>
    cases hex : t.usernameExists newUsername <;>
      simp [atPc, stage, Env.outcome, Env.fault, hf, advance, proceed, hex, State.goto, orException]

theorem stage_reading (hrow : t.findById id = some r) (hdiffers : r.username ≠ newUsername) :
    stage env (atPc t (.reading r newUsername)) =
      atPc t (orException env.reading (.entering r newUsername r.username)) := by
  obtain ⟨hr, hid⟩ := Tables.findById_eq_some_iff.1 hrow
  have hrow' : t.findById r.id = some r := hid.symm ▸ hrow
  cases hf : env.reading with
  | some what =>
    simp [atPc, stage, Env.outcome, Env.fault, hf, advance, Pc.failed, State.goto, orException]
  | none =>
    simp [atPc, stage, Env.outcome, Env.fault, hf, advance, proceed, hrow', hdiffers, State.goto,
      orException]

/-- The request enters the current name into the history: the checks pass, and the statements up to
    the `INSERT` do not fail. -/
structure Reaches (env : Env) (t : Tables srv.weight) (r : UserRow) (newUsername : Bytes) :
    Prop where
  differs : r.username ≠ newUsername
  cooled : retryAfter r env.now = none
  unknown : t.usernameExists newUsername = false
  finding : env.finding = none
  existing : env.existing = none
  reading : env.reading = none
  entering : env.entering = none

/-- A request that reaches the `INSERT`. -/
theorem iterate_of_reaches (hrow : t.findById id = some r) (h : Reaches env t r newUsername) :
    (stage env)^[5] (atPc t (.finding id newUsername)) =
      (stage env)^[2] (atPc t (.entering r newUsername r.username)) := by
  simp only [Function.iterate_succ_apply]
  rw [stage_finding hrow, h.finding, orException, if_neg h.differs, h.cooled]
  dsimp only
  rw [stage_existing, h.existing, orException, h.unknown, if_neg Bool.false_ne_true,
    stage_reading hrow h.differs, h.reading, orException]

/-- The name was changed, or is the user's already. -/
def Success (a : Answer) : Prop := ∃ username oldAlias, a = .renamed username oldAlias

theorem not_success_exception (w : Bytes) : ¬Success (.exception w) := by
  rintro ⟨_, _, ⟨⟩⟩

theorem stage_entering_of_fault {oldUsername w : Bytes} (h : env.entering = some w) :
    stage env (atPc t (.entering r newUsername oldUsername)) =
      atPc t (.answered (.exception w)) := by
  simp [atPc, stage, Env.outcome, Env.fault, h, advance, Pc.failed, State.goto]

/-- A request that does not reach the `INSERT`, or whose `INSERT` fails, leaves the tables as they
    are; it succeeds only if the user has the name already. -/
theorem ends_of_not_reaches (hrow : t.findById id = some r) (h : ¬Reaches env t r newUsername) :
    Ends env t 5 (atPc t (.finding id newUsername))
      fun a => Success a → r.username = newUsername := by
  refine ends_of_stage (stage_finding hrow) (fun _ => nofun) fun hfinding => ?_
  by_cases hdiffers : r.username = newUsername
  · rw [if_pos hdiffers]
    exact ends_answered 4 fun _ => hdiffers
  rw [if_neg hdiffers]
  cases hcooled : retryAfter r env.now with
  | some n => exact ends_answered 4 nofun
  | none =>
    refine ends_of_stage stage_existing (fun _ => nofun) fun hexisting => ?_
    cases hunknown : t.usernameExists newUsername with
    | true => exact ends_answered 3 nofun
    | false =>
      refine ends_of_stage (stage_reading hrow hdiffers) (fun _ => nofun) fun hreading => ?_
      cases hentering : env.entering with
      | none =>
        exact absurd
          ⟨hdiffers, hcooled, hunknown, hfinding, hexisting, hreading, hentering⟩ h
      | some w =>
        rw [Ends, Function.iterate_succ_apply, stage_entering_of_fault hentering]
        exact ends_answered 1 nofun

/-! ## The rival -/

section Rivals

variable {weight : Bytes → Bytes} {t t₁ : Tables weight} {id : Int} {r : UserRow}

/-- A rival leaves the row of the user. -/
theorem findById_act (rival : Rival) (hrow : t.findById id = some r) :
    (rival.act id t).findById id = some r := by
  cases rival with
  | register username passwordHash role email =>
    rw [Rival.act]
    rcases t.createUser_cases username passwordHash role email with heq | ⟨t', heq, husers, -⟩
    · rw [heq, hrow]
    · rw [heq, Tables.findById, husers, List.find?_append]
      exact (congrArg (Option.or · _) hrow).trans rfl
  | rename id' newUsername now =>
    rw [Rival.act]
    split_ifs with hid'
    · exact hrow
    · obtain ⟨hr, hid⟩ := Tables.findById_eq_some_iff.1 hrow
      refine Tables.findById_eq_some_iff.2 ⟨?_, hid⟩
      have hcases := t.updateUsername_renames id' newUsername now
      generalize t.updateUsername id' newUsername now = result at hcases
      cases hcases with
      | same => exact hr
      | refused => exact hr
      | halted q t' _ _ husers => exact husers ▸ hr
      | renamed q t' _ _ husers =>
        rw [husers]
        exact Tables.mem_updateRow.2 ⟨r, hr, if_neg fun h => hid' (h.symm.trans hid)⟩

/-- A rival enters no old name of the user. -/
theorem history_act (rival : Rival) {x : Int × Bytes} (hx : x ∈ (rival.act id t).history)
    (hid : x.1 = id) : x ∈ t.history := by
  cases rival with
  | register username passwordHash role email =>
    rw [Rival.act] at hx
    rcases t.createUser_cases username passwordHash role email with heq | ⟨t', heq, -, hhistory⟩
    · rwa [heq] at hx
    · rwa [heq, hhistory] at hx
  | rename id' newUsername now =>
    rw [Rival.act] at hx
    split_ifs at hx with hid'
    · exact hx
    · have hcases := t.updateUsername_renames id' newUsername now
      generalize t.updateUsername id' newUsername now = result at hx hcases
      cases hcases with
      | same => exact hx
      | refused => exact hx
      | halted q t' _ _ _ hhistory | renamed q t' _ _ _ hhistory =>
        rw [hhistory] at hx
        rcases List.mem_append.1 hx with hx | hx
        · exact hx
        · obtain rfl := List.mem_singleton.1 hx
          exact absurd hid hid'

/-- A rival takes no old name out. -/
theorem mem_history_act (rival : Rival) {x : Int × Bytes} (hx : x ∈ t.history) :
    x ∈ (rival.act id t).history := by
  cases rival with
  | register username passwordHash role email =>
    rw [Rival.act]
    rcases t.createUser_cases username passwordHash role email with heq | ⟨t', heq, -, hhistory⟩
    · rwa [heq]
    · rwa [heq, hhistory]
  | rename id' newUsername now =>
    rw [Rival.act]
    split_ifs
    · exact hx
    · have hcases := t.updateUsername_renames id' newUsername now
      generalize t.updateUsername id' newUsername now = result at hcases
      cases hcases with
      | same => exact hx
      | refused => exact hx
      | halted q t' _ _ _ hhistory | renamed q t' _ _ _ hhistory =>
        rw [hhistory]
        exact List.mem_append_left _ hx

/-- A rival does the same to the users when the current name of the user is in the history. -/
theorem users_act (rival : Rival) (hrow : t.findById id = some r)
    (hins : t.insertHistory id r.username = some t₁) :
    (rival.act id t₁).users = (rival.act id t).users := by
  obtain ⟨husers, hhistory⟩ := Tables.insertHistory_eq_some hins
  cases rival with
  | register username passwordHash role email =>
    have hadmits : t₁.Admits username email ↔ t.Admits username email := by
      rw [Tables.Admits, Tables.Admits, husers, Tables.nextId_insertHistory hins]
    simp only [Rival.act, Tables.createUser]
    by_cases h : t.Admits username email
    · rw [dif_pos h, dif_pos (hadmits.2 h)]
      simp only [Tables.newRow, husers, Tables.nextId_insertHistory hins]
    · rw [dif_neg h, dif_neg fun h' => h (hadmits.1 h'), husers]
  | rename id' newUsername now =>
    rw [Rival.act, Rival.act]
    split_ifs with hid'
    · exact husers
    · rw [Tables.users_updateUsername, Tables.users_updateUsername]
      have hsame : t₁.findById id' = t.findById id' := by
        rw [Tables.findById, husers, ← Tables.findById]
      rw [hsame]
      cases hq : t.findById id' with
      | none => exact husers
      | some q =>
        obtain ⟨hr, hid⟩ := Tables.findById_eq_some_iff.1 hrow
        obtain ⟨hq, hqid⟩ := Tables.findById_eq_some_iff.1 hq
        -- the rival has another name than the user
        have hother : weight r.username ≠ weight q.username := by
          intro hw
          obtain rfl := Tables.eq_of_name hr hq hw
          exact hid' (hqid.symm.trans hid)
        have hold : (∀ x ∈ t₁.history, weight x.2 ≠ weight q.username) ↔
            ∀ x ∈ t.history, weight x.2 ≠ weight q.username := by
          rw [hhistory, List.forall_mem_append, List.forall_mem_singleton, and_iff_left hother]
        dsimp only
        simp only [hold, husers, Tables.updateRow]

end Rivals

/-! ## The two writes -/

/-- The current name of the user is in the history. -/
def Spent (t : Tables srv.weight) (r : UserRow) : Prop :=
  ∃ x ∈ t.history, srv.weight x.2 = srv.weight r.username

instance (t : Tables srv.weight) (r : UserRow) : Decidable (Spent t r) :=
  inferInstanceAs (Decidable (∃ _ ∈ _, _))

/-- At the `UPDATE` nobody else has the name. -/
def Undisputed (env : Env) (t : Tables srv.weight) (id : Int) (newUsername : Bytes) : Prop :=
  ∀ q ∈ (env.disturb id t).users, q.id ≠ id → srv.weight q.username ≠ srv.weight newUsername

instance (env : Env) (t : Tables srv.weight) (id : Int) (newUsername : Bytes) :
    Decidable (Undisputed env t id newUsername) :=
  inferInstanceAs (Decidable (∀ _ ∈ _, _))

/-- The answer to a change that was refused by a key. -/
def raceLost : Answer := nameConflict (bytes "username already taken (race)")

theorem not_success_raceLost : ¬Success raceLost := by
  rintro ⟨_, _, ⟨⟩⟩

/-- A current name that is in the history is refused. -/
theorem iterate_of_spent (hrow : t.findById id = some r) (h : Reaches env t r newUsername)
    (hspent : Spent t r) :
    (stage env)^[5] (atPc t (.finding id newUsername)) = atPc t (.answered raceLost) := by
  obtain ⟨hr, -⟩ := Tables.findById_eq_some_iff.1 hrow
  have hins : t.insertHistory r.id r.username = none :=
    (Tables.insertHistory_eq_none_iff ⟨r, hr, rfl⟩).2 hspent
  have hstage : stage env (atPc t (.entering r newUsername r.username)) =
      atPc t (.answered raceLost) := by
    simp [atPc, stage, Env.outcome, Env.fault, h.entering, advance, proceed, hins, State.goto,
      raceLost]
  rw [iterate_of_reaches hrow h, Function.iterate_succ_apply, hstage, iterate_answered]

/-- Any other one is entered; then the rival acts. -/
theorem iterate_of_not_spent (hrow : t.findById id = some r) (h : Reaches env t r newUsername)
    (hspent : ¬Spent t r) :
    ∃ t₁, t.insertHistory id r.username = some t₁ ∧
      (stage env)^[5] (atPc t (.finding id newUsername)) =
        stage env (atPc t₁ (.setting r newUsername)) := by
  obtain ⟨hr, hid⟩ := Tables.findById_eq_some_iff.1 hrow
  obtain ⟨t₁, ht₁⟩ := Option.ne_none_iff_exists'.1 fun hnone =>
    hspent ((Tables.insertHistory_eq_none_iff ⟨r, hr, hid⟩).1 hnone)
  have hstage : stage env (atPc t (.entering r newUsername r.username)) =
      atPc t₁ (.setting r newUsername) := by
    simp [atPc, stage, Env.outcome, Env.fault, h.entering, advance, proceed, hid, ht₁, State.goto]
  refine ⟨t₁, ht₁, ?_⟩
  rw [iterate_of_reaches hrow h, Function.iterate_succ_apply, hstage]
  rfl

theorem findById_disturb (env : Env) (hrow : t.findById id = some r) :
    (env.disturb id t).findById id = some r := by
  rw [Env.disturb]
  cases env.rival with
  | none => exact hrow
  | some rival => exact findById_act rival hrow

theorem users_disturb (env : Env) {t₁ : Tables srv.weight} (hrow : t.findById id = some r)
    (hins : t.insertHistory id r.username = some t₁) :
    (env.disturb id t₁).users = (env.disturb id t).users := by
  simp only [Env.disturb]
  cases env.rival with
  | none => exact (Tables.insertHistory_eq_some hins).1
  | some rival => exact users_act rival hrow hins

/-- The `UPDATE` succeeds: nobody else has the name. -/
theorem stage_setting_of_undisputed {t₁ : Tables srv.weight} (hrow : t.findById id = some r)
    (hdiffers : r.username ≠ newUsername) (hins : t.insertHistory id r.username = some t₁)
    (hsetting : env.setting = none) (h : Undisputed env t id newUsername) :
    ∃ a, (stage env (atPc t₁ (.setting r newUsername))).calls = [.answered a] ∧ Success a := by
  obtain ⟨-, hid⟩ := Tables.findById_eq_some_iff.1 hrow
  have hrow₁ : t₁.findById id = some r := by
    rw [Tables.findById, (Tables.insertHistory_eq_some hins).1, ← Tables.findById, hrow]
  have hfree : ∀ q ∈ (env.disturb id t₁).users, q.id ≠ id →
      srv.weight q.username ≠ srv.weight newUsername := by
    rw [users_disturb env hrow hins]
    exact h
  have hchanged : r ≠ Tables.rename newUsername env.now r :=
    fun heq => hdiffers (congrArg UserRow.username heq)
  obtain ⟨t₂, hset⟩ : ∃ t₂, (env.disturb id t₁).setUsername id newUsername env.now =
      some (true, t₂) := by
    rw [Tables.setUsername, dif_pos hfree, findById_disturb env hrow₁, Option.any_some,
      decide_eq_true hchanged]
    exact ⟨_, rfl⟩
  refine ⟨.renamed newUsername (some r.username), ?_, _, _, rfl⟩
  simp [atPc, stage, Env.outcome, Env.fault, hsetting, advance, proceed, hid, hset, State.goto]

/-- The `UPDATE` fails or is refused: the current name stays in the history. -/
theorem stage_setting_of_disputed {t₁ : Tables srv.weight} (hrow : t.findById id = some r)
    (hins : t.insertHistory id r.username = some t₁)
    (h : ¬(env.setting = none ∧ Undisputed env t id newUsername)) :
    (stage env (atPc t₁ (.setting r newUsername))).tables = env.disturb id t₁ ∧
      ∃ a, (stage env (atPc t₁ (.setting r newUsername))).calls = [.answered a] ∧ ¬Success a := by
  obtain ⟨-, hid⟩ := Tables.findById_eq_some_iff.1 hrow
  cases hsetting : env.setting with
  | some w =>
    refine ⟨?_, .exception w, ?_, not_success_exception w⟩ <;>
      simp [atPc, stage, Env.outcome, Env.fault, hsetting, advance, Pc.failed, hid, State.goto]
  | none =>
    have hfree : ¬∀ q ∈ (env.disturb id t₁).users, q.id ≠ id →
        srv.weight q.username ≠ srv.weight newUsername := by
      rw [users_disturb env hrow hins]
      exact fun hfree => h ⟨hsetting, hfree⟩
    have hset : (env.disturb id t₁).setUsername id newUsername env.now = none := dif_neg hfree
    refine ⟨?_, raceLost, ?_, not_success_raceLost⟩ <;>
      simp [atPc, stage, Env.outcome, Env.fault, hsetting, advance, proceed, hid, hset, State.goto,
        raceLost]

/-- The tables after the `INSERT` are not those that the rival alone makes. -/
theorem disturb_ne_of_insertHistory (env : Env) {t₁ : Tables srv.weight}
    (hins : t.insertHistory id r.username = some t₁) (hspent : ¬Spent t r) :
    env.disturb id t₁ ≠ t ∧ env.disturb id t₁ ≠ env.disturb id t := by
  have hmem : (id, r.username) ∈ (env.disturb id t₁).history := by
    have hmem₁ : (id, r.username) ∈ t₁.history := by
      rw [(Tables.insertHistory_eq_some hins).2]
      exact List.mem_concat_self
    rw [Env.disturb]
    cases env.rival with
    | none => exact hmem₁
    | some rival => exact mem_history_act rival hmem₁
  have hnot : (id, r.username) ∉ (env.disturb id t).history := by
    rw [Env.disturb]
    cases env.rival with
    | none => exact fun h => hspent ⟨_, h, rfl⟩
    | some rival => exact fun h => hspent ⟨_, history_act rival h rfl, rfl⟩
  exact ⟨fun h => hspent ⟨_, h ▸ hmem, rfl⟩, fun h => hnot (h ▸ hmem)⟩

/-! ## Made, or not begun -/

/-- The new name is not an old name of another user. -/
def NotHeld (t : Tables srv.weight) (id : Int) (newUsername : Bytes) : Prop :=
  ∀ x ∈ t.history, srv.weight x.2 = srv.weight newUsername → x.1 = id

instance (t : Tables srv.weight) (id : Int) (newUsername : Bytes) :
    Decidable (NotHeld t id newUsername) :=
  inferInstanceAs (Decidable (∀ _ ∈ _, _))

/-- No statement fails, and there is no rival. -/
def Env.Quiet (env : Env) : Prop := env = ⟨env.now, none, none, none, none, none, none⟩

instance (env : Env) : Decidable env.Quiet := inferInstanceAs (Decidable (_ = _))

/-- A request of a user past the cooldown, for a name that is free, succeeds when nothing goes
    wrong; and one that does not succeed leaves the tables as they were, but for what the rival has
    written. -/
structure Meets (srv : Server) (env : Env) (t : Tables srv.weight) (claims : Claims)
    (body what : Bytes) (id : Int) (newUsername : Bytes) : Prop where
  total : ∀ r, t.findById id = some r → retryAfter r env.now = none →
    t.usernameExists newUsername = false → NotHeld t id newUsername → env.Quiet →
    ∃ a, (updateUsernameHandler srv env t claims body what).calls = [.answered a] ∧ Success a
  atomic : ∀ a, (updateUsernameHandler srv env t claims body what).calls = [.answered a] →
    ¬Success a → (updateUsernameHandler srv env t claims body what).tables = t ∨
      (updateUsernameHandler srv env t claims body what).tables = env.disturb id t

/-- The `INSERT` of the current name, if the request reaches it, is refused by the history only
    where the change may be refused; and if it is not refused, neither is the `UPDATE`. -/
def Settled (env : Env) (t : Tables srv.weight) (id : Int) (newUsername : Bytes) : Prop :=
  ∀ r, t.findById id = some r → Reaches env t r newUsername →
    if Spent t r then ¬(NotHeld t id newUsername ∧ env.Quiet)
    else env.setting = none ∧ Undisputed env t id newUsername

theorem settled_iff (hrow : t.findById id = some r) (h : Reaches env t r newUsername) :
    Settled env t id newUsername ↔ if Spent t r then ¬(NotHeld t id newUsername ∧ env.Quiet)
      else env.setting = none ∧ Undisputed env t id newUsername := by
  refine ⟨fun hsettled => hsettled r hrow h, fun hcase q hq _ => ?_⟩
  obtain rfl := Option.some.inj (hrow.symm.trans hq)
  exact hcase

/-- There is no such user. -/
theorem ends_of_no_user (env : Env) (newUsername : Bytes) (hrow : t.findById id = none) :
    Ends env t 5 (atPc t (.finding id newUsername)) fun _ => True := by
  have hstage : stage env (atPc t (.finding id newUsername)) = atPc t (orException env.finding
      (.answered (.error ⟨404, .notFound, bytes "user not found", []⟩))) := by
    cases hf : env.finding <;>
      simp [atPc, stage, Env.outcome, Env.fault, hf, advance, proceed, hrow, Pc.failed, State.goto,
        orException]
  exact ends_of_stage hstage (fun _ => trivial) fun _ => ends_answered 4 trivial

/-- Where nothing goes wrong, a change to a name that is free gets to the `INSERT`. -/
theorem reaches_of_quiet (hrow : t.findById id = some r) (hcooled : retryAfter r env.now = none)
    (hunknown : t.usernameExists newUsername = false) (hquiet : env.Quiet) :
    Reaches env t r newUsername where
  differs := by
    rintro rfl
    refine Bool.false_ne_true (hunknown.symm.trans (List.any_eq_true.2 ⟨r, ?_, ?_⟩))
    · exact (Tables.findById_eq_some_iff.1 hrow).1
    · exact beq_self_eq_true (srv.weight r.username)
  cooled := hcooled
  unknown := hunknown
  finding := by rw [hquiet]
  existing := by rw [hquiet]
  reading := by rw [hquiet]
  entering := by rw [hquiet]

/-- A request that is checked goes through its statements. -/
theorem updateUsernameHandler_of_ok
    (hcheck : checkRename claims body what = .ok (id, newUsername)) :
    updateUsernameHandler srv env t claims body what =
      (stage env)^[5] (atPc t (.finding id newUsername)) := by
  simp only [updateUsernameHandler, beginRename, hcheck, atPc]

/-- The `INSERT` is refused: the tables are as before, so only the success can be missing. -/
theorem meets_iff_of_spent (hcheck : checkRename claims body what = .ok (id, newUsername))
    (hrow : t.findById id = some r) (hreaches : Reaches env t r newUsername)
    (hspent : Spent t r) :
    Meets srv env t claims body what id newUsername ↔ ¬(NotHeld t id newUsername ∧ env.Quiet) := by
  have hfinal := (updateUsernameHandler_of_ok hcheck).trans (iterate_of_spent hrow hreaches hspent)
  constructor
  · rintro h ⟨hheld, hquiet⟩
    obtain ⟨a, ha, hsuccess⟩ := h.total r hrow hreaches.cooled hreaches.unknown hheld hquiet
    rw [hfinal] at ha
    cases ha
    obtain ⟨_, _, hrenamed⟩ := hsuccess
    cases hrenamed
  · exact fun h => ⟨fun q _ _ _ hheld hquiet => absurd ⟨hheld, hquiet⟩ h,
      fun _ _ _ => .inl (by rw [hfinal]; rfl)⟩

/-- The `INSERT` is made: then the `UPDATE` has to be. -/
theorem meets_iff_of_not_spent (hcheck : checkRename claims body what = .ok (id, newUsername))
    (hrow : t.findById id = some r) (hreaches : Reaches env t r newUsername)
    (hspent : ¬Spent t r) :
    Meets srv env t claims body what id newUsername ↔
      env.setting = none ∧ Undisputed env t id newUsername := by
  obtain ⟨t₁, hins, hiter⟩ := iterate_of_not_spent hrow hreaches hspent
  have hfinal := (updateUsernameHandler_of_ok hcheck).trans hiter
  by_cases hset : env.setting = none ∧ Undisputed env t id newUsername
  · have hdone := stage_setting_of_undisputed hrow hreaches.differs hins hset.1 hset.2
    rw [← hfinal] at hdone
    refine iff_of_true ⟨fun _ _ _ _ _ _ => hdone, fun a ha hnot => ?_⟩ hset
    obtain ⟨a', ha', hsuccess⟩ := hdone
    cases ha.symm.trans ha'
    exact absurd hsuccess hnot
  · -- only the first write is made
    obtain ⟨htables, a, ha, hnot⟩ := stage_setting_of_disputed hrow hins hset
    rw [← hfinal] at htables ha
    refine iff_of_false (fun h => ?_) hset
    obtain ⟨hne, hne'⟩ := disturb_ne_of_insertHistory env hins hspent
    rcases h.atomic a ha hnot with h | h
    · exact hne (htables.symm.trans h)
    · exact hne' (htables.symm.trans h)

/-- A change that may be made is made, and one that is not made leaves the tables as they were,
    exactly if the request does not stop between its two writes, and the name that is given up was
    not given up before. -/
theorem rename_meets_iff (srv : Server) (env : Env) (t : Tables srv.weight) (claims : Claims)
    (body what : Bytes) {id : Int} {newUsername : Bytes}
    (hcheck : checkRename claims body what = .ok (id, newUsername)) :
    Meets srv env t claims body what id newUsername ↔ Settled env t id newUsername := by
  have hhandler : updateUsernameHandler srv env t claims body what =
      (stage env)^[5] (atPc t (.finding id newUsername)) := updateUsernameHandler_of_ok hcheck
  cases hrow : t.findById id with
  | none =>
    obtain ⟨a, ha, -⟩ := ends_of_no_user env newUsername hrow
    rw [← hhandler] at ha
    refine iff_of_true ⟨fun r hr => ?_, fun _ _ _ => .inl (by rw [ha]; rfl)⟩ fun r hr => ?_ <;>
      exact absurd (hrow.symm.trans hr) nofun
  | some r =>
    by_cases hreaches : Reaches env t r newUsername
    swap
    · -- no write is begun
      obtain ⟨a, ha, -⟩ := ends_of_not_reaches hrow hreaches
      rw [← hhandler] at ha
      refine iff_of_true ⟨fun q hq hcooled hunknown _ hquiet => ?_,
        fun _ _ _ => .inl (by rw [ha]; rfl)⟩ fun q hq h => ?_ <;>
        obtain rfl := Option.some.inj (hrow.symm.trans hq)
      · exact absurd (reaches_of_quiet hrow hcooled hunknown hquiet) hreaches
      · exact absurd h hreaches
    rw [settled_iff hrow hreaches]
    by_cases hspent : Spent t r
    · rw [if_pos hspent]
      exact meets_iff_of_spent hcheck hrow hreaches hspent
    · rw [if_neg hspent]
      exact meets_iff_of_not_spent hcheck hrow hreaches hspent

/-! ## There and back -/

/-- Names are compared byte by byte. -/
def bytewise : Server := ⟨fun _ _ => false, fun name => name⟩

/-- A user. -/
def carol : UserRow := ⟨7, bytes "carol", [], .user, none, none⟩

/-- The tables with this user. -/
def carolTables : Tables bytewise.weight where
  users := [carol]
  history := []
  nextId := 8
  ids := List.nodup_singleton _
  ids_lt := by decide
  nextId_le := by decide
  names := List.nodup_singleton _
  oldNames := List.nodup_nil
  owners := by decide

/-- The token of the user. -/
def carolClaims : Claims := ⟨bytes "7", bytes "carol", .user⟩

/-- Nothing goes wrong on the given day. -/
def quietDay (day : Int) : Env := ⟨day * usernameChangeCooldownSeconds, none, none, none, none,
  none, none⟩

/-- The last statement fails. -/
def brokenDay : Env := { quietDay 0 with setting := some (bytes "gone") }

/-- The body of a request for a name. -/
def nameBody (name : String) : Bytes :=
  bytes "\x7b\"username\":\"" ++ bytes name ++ bytes "\"\x7d"

/-- A request of the user. -/
def renameTo (env : Env) (t : Tables bytewise.weight) (name : String) : State bytewise :=
  updateUsernameHandler bytewise env t carolClaims (nameBody name) []

/-- The first change of the name is made. -/
theorem rename_meets_carol :
    Meets bytewise (quietDay 0) carolTables carolClaims (nameBody "dave") [] 7 (bytes "dave") := by
  refine (rename_meets_iff bytewise (quietDay 0) carolTables carolClaims (nameBody "dave") []
    (by decide +kernel)).2 fun r hr _ => ?_
  obtain rfl : carol = r := Option.some.inj hr
  decide

/-- The tables after the user has become `dave`, and `carol` again. -/
def backTables : Tables bytewise.weight :=
  (renameTo (quietDay 1) (renameTo (quietDay 0) carolTables "dave").tables "carol").tables

/-- A user who has gone back to an old name can change it no more; and a change that fails in its
    last statement leaves the name in the history, so that it cannot be changed either. -/
theorem spent_refused :
    (renameTo (quietDay 2) backTables "erin").calls = [.answered raceLost] ∧
      ¬Meets bytewise (quietDay 2) backTables carolClaims (nameBody "erin") [] 7 (bytes "erin") ∧
      (renameTo brokenDay carolTables "dave").tables.history = [(7, bytes "carol")] := by
  have hrefused : (renameTo (quietDay 2) backTables "erin").calls = [.answered raceLost] := by
    decide +kernel
  refine ⟨hrefused, fun h => ?_, by decide +kernel⟩
  have hrow : backTables.findById 7 =
      some { carol with usernameChangedAt := some usernameChangeCooldownSeconds } := by
    decide +kernel
  obtain ⟨a, ha, hsuccess⟩ :=
    h.total _ hrow (by decide) (by decide +kernel) (by decide +kernel) rfl
  cases hrefused.symm.trans ha
  obtain ⟨_, _, hrenamed⟩ := hsuccess
  cases hrenamed

end LiteCode.Rename
