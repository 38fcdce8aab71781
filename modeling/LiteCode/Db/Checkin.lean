import LiteCode.Lib.ListIndex
import LiteCode.Lib.NumberRuns
import LiteCode.Lib.System
import Mathlib.Data.List.Nodup

/-!
# Check-ins

`try_checkin` of `src/db/checkin_repo.h` records that a user solved a problem today, and moves the
counters `current_streak` and `longest_streak` of the user along: an `INSERT`, two reads and an
`UPDATE` that are no transaction, each of which may fail. A statement that fails is taken to have
had no effect: no reply of the database is lost. `get_stats` reports the counters as they are
stored.

The date of every statement is the one of its own time (`CURDATE()`). The counters are only moved
by a check-in, so a streak that is broken is reported until the next one.

* `Right`: the counters of a user against the days that are recorded;
* `SameDay`: after its `INSERT` a call goes through to its `UPDATE`, on the same day;
* `streaks_right`: with such steps `longest_streak` is right whenever no call is in progress, and
  the streak that is reported is right exactly if there is a record of today or yesterday, or none
  at all.
-/

namespace LiteCode.Checkin

/-- The rows of `checkin_records` of the user, with their unique key. -/
structure Records where
  days : List Nat
  unique : days.Nodup

theorem Records.unique_concat (r : Records) {d : Nat} (h : d ∉ r.days) :
    (r.days ++ [d]).Nodup := by
  rw [← List.concat_eq_append]
  exact r.unique.concat h

/-- `INSERT INTO checkin_records`, refused when the day is there. -/
def Records.insert (r : Records) (d : Nat) : Option Records :=
  if h : d ∉ r.days then some ⟨r.days ++ [d], r.unique_concat h⟩ else none

/-- The columns of the user. -/
structure UserRow where
  lastCheckin : Option Nat
  currentStreak : Nat
  longestStreak : Nat
  deriving DecidableEq, Repr

/-- The statement of a call of `try_checkin` that comes next. -/
inductive Pc
  | selectToday
  | insert
  | selectUser
  | selectYesterday (currentStreak longestStreak : Nat)
  | update (newStreak newLongest : Nat)
  | returned (checkedIn : Bool)
  /-- The first statement failed, outside the `try`. -/
  | threw
  deriving DecidableEq, Repr

/-- The call is between two statements. -/
def Pc.inProgress : Pc → Bool
  | .returned _ | .threw => false
  | _ => true

/-- The call has inserted its record and has not updated the counters. -/
def Pc.recorded : Pc → Bool
  | .selectUser | .selectYesterday _ _ | .update _ _ => true
  | _ => false

/-- The date, the rows of the user and the calls for the user. -/
structure State where
  today : Nat
  records : Records
  user : UserRow
  calls : List Pc

/-- A call begins, the next statement of the call `p` succeeds or fails, and the next day
    begins. -/
inductive Action
  | tryCheckin
  | statement (p : Nat) (ok : Bool)
  | nextDay
  deriving DecidableEq, Repr

/-- The call `p` goes on at `pc`. -/
def State.goto (s : State) (p : Nat) (pc : Pc) : State := { s with calls := s.calls.set p pc }

/-- The next statement of the call `p`, if the database carries it out. -/
def statement (s : State) (p : Nat) : Pc → State
  | .selectToday =>
    s.goto p (if s.today ∈ s.records.days then .returned false else .insert)
  | .insert =>
    match s.records.insert s.today with
    | some records => { s with records }.goto p .selectUser
    | none => s.goto p (.returned false)
  | .selectUser =>
    s.goto p <| match s.user.lastCheckin with
      | some _ => .selectYesterday s.user.currentStreak s.user.longestStreak
      | none => .update 1 (max s.user.longestStreak 1)
  | .selectYesterday currentStreak longestStreak =>
    let newStreak := if ∃ d ∈ s.records.days, d + 1 = s.today then currentStreak + 1 else 1
    s.goto p (.update newStreak (max longestStreak newStreak))
  | .update newStreak newLongest =>
    { s with user := ⟨some s.today, newStreak, newLongest⟩ }.goto p (.returned true)
  | .returned _ => s
  | .threw => s

/-- The statement fails. Only the first one is outside the `try`. -/
def fault (s : State) (p : Nat) : Pc → State
  | .selectToday => s.goto p .threw
  | _ => s.goto p (.returned false)

/-- One step. -/
def step (s : State) : Action → Option State
  | .tryCheckin => some { s with calls := s.calls ++ [.selectToday] }
  | .statement p ok =>
    match s.calls[p]? with
    | none => none
    | some pc =>
      if !pc.inProgress then none else some (if ok then statement s p pc else fault s p pc)
  | .nextDay => some { s with today := s.today + 1 }

/-- `CheckinStats`. -/
structure CheckinStats where
  currentStreak : Nat
  longestStreak : Nat
  checkedInToday : Bool
  totalCheckins : Nat
  deriving DecidableEq, Repr

/-- `get_stats`. -/
def getStats (s : State) : CheckinStats where
  currentStreak := s.user.currentStreak
  longestStreak := s.user.longestStreak
  checkedInToday := s.today ∈ s.records.days
  totalCheckins := s.records.days.length

/-- A new user, on any day. -/
def system : System State Action where
  init s := s.records.days = [] ∧ s.user = ⟨none, 0, 0⟩ ∧ s.calls = []
  step := step

/-- No call is in progress. -/
def Quiet (s : State) : Prop := ∀ pc ∈ s.calls, pc.inProgress = false

instance (s : State) : Decidable (Quiet s) :=
  inferInstanceAs (Decidable (∀ pc ∈ s.calls, pc.inProgress = false))

/-- The run of days that ends today or yesterday; none if neither of them is recorded. -/
def currentRun (days : List Nat) : Nat → Nat
  | 0 => runEnding days 0
  | yesterday + 1 =>
    if yesterday + 1 ∈ days then runEnding days (yesterday + 1)
    else if yesterday ∈ days then runEnding days yesterday
    else 0

/-- Today or yesterday is recorded, or nothing is. -/
def Recent (s : State) : Prop :=
  s.today ∈ s.records.days ∨ (∃ d ∈ s.records.days, d + 1 = s.today) ∨ s.records.days = []

/-- After its `INSERT` the statements of a call do not fail, and the day does not end before its
    `UPDATE`. -/
def SameDay (s : State) : Action → Prop
  | .tryCheckin => True
  | .statement p ok => ok = false → ∀ pc ∈ s.calls[p]?, pc.recorded = false
  | .nextDay => ∀ pc ∈ s.calls, pc.recorded = false

/-- Besides, no day ends without a check-in, once there was one. -/
def EveryDay (s : State) : Action → Prop
  | .nextDay => SameDay s .nextDay ∧ (s.today ∈ s.records.days ∨ s.records.days = [])
  | a => SameDay s a

instance (s : State) : (a : Action) → Decidable (SameDay s a)
  | .tryCheckin => isTrue trivial
  | .statement p ok => inferInstanceAs (Decidable (ok = false → ∀ pc ∈ s.calls[p]?, _))
  | .nextDay => inferInstanceAs (Decidable (∀ pc ∈ s.calls, pc.recorded = false))

instance (s : State) : (a : Action) → Decidable (EveryDay s a)
  | .tryCheckin => isTrue trivial
  | .statement p ok => inferInstanceAs (Decidable (SameDay s (.statement p ok)))
  | .nextDay => inferInstanceAs (Decidable (_ ∧ _))

/-! ## The counters -/

variable {s s' : State} {a : Action} {pc : Pc} {p d today : Nat} {days : List Nat} {u : UserRow}

/-- The counters of a user who has the records `days`. -/
structure Right (days : List Nat) (u : UserRow) : Prop where
  last : ∀ d, u.lastCheckin = some d →
    d ∈ days ∧ (∀ x ∈ days, x ≤ d) ∧ u.currentStreak = runEnding days d
  fresh : u.lastCheckin = none → days = [] ∧ u.currentStreak = 0
  longest : IsGreatest {m | HasRun days m} u.longestStreak

/-- The streak is the one that ends with the last day. -/
theorem Right.of_last (h : Right days u) (hd : d ∈ days) (hmax : ∀ x ∈ days, x ≤ d) :
    u.lastCheckin = some d ∧ u.currentStreak = runEnding days d := by
  cases hl : u.lastCheckin with
  | none =>
    rw [(h.fresh hl).1] at hd
    cases hd
  | some e =>
    obtain ⟨he, hle, hc⟩ := h.last e hl
    obtain rfl := le_antisymm (hmax e he) (hle d hd)
    exact ⟨rfl, hc⟩

theorem Right.init : Right [] ⟨none, 0, 0⟩ where
  last d hd := by cases hd
  fresh _ := ⟨rfl, rfl⟩
  longest := by
    refine ⟨⟨0, fun i hi => absurd hi (Nat.not_lt_zero i)⟩, ?_⟩
    rintro m ⟨a, ha⟩
    by_contra hm
    exact absurd (ha 0 (Nat.lt_of_not_le hm)) List.not_mem_nil

/-- What a call computes for a day that it recorded after all others. -/
theorem Right.newStreak_eq (h : Right days u) (hlt : ∀ x ∈ days, x < today) :
    runEnding (days ++ [today]) today =
      if u.lastCheckin.isSome ∧ ∃ d ∈ days ++ [today], d + 1 = today then u.currentStreak + 1
      else 1 := by
  have hsame : ∀ y < today, ∀ x ≤ y, x ∈ days ++ [today] ↔ x ∈ days := by
    intro y hy x hx
    rw [List.mem_append, List.mem_singleton, or_iff_left (by omega)]
  by_cases hy : ∃ d ∈ days ++ [today], d + 1 = today
  · obtain ⟨y, hmem, rfl⟩ := hy
    have hmem := (hsame y (Nat.lt_succ_self y) y (le_refl y)).1 hmem
    obtain ⟨hl, hc⟩ := h.of_last hmem fun x hx => Nat.le_of_lt_succ (hlt x hx)
    rw [runEnding_succ (List.mem_append_right _ (List.mem_singleton_self _)),
      runEnding_congr (hsame y (Nat.lt_succ_self y)), ← hc, if_pos]
    exact ⟨by rw [hl]; rfl, y, List.mem_append_left _ hmem, rfl⟩
  · rw [if_neg fun hc => hy hc.2]
    cases today with
    | zero => exact if_pos (List.mem_append_right _ (List.mem_singleton_self _))
    | succ y =>
      rw [runEnding_succ (List.mem_append_right _ (List.mem_singleton_self _)),
        runEnding_of_not_mem fun hmem => hy ⟨y, hmem, rfl⟩]

/-- The `UPDATE` with the streak that ends today. -/
theorem Right.update (h : Right days u) (hlt : ∀ x ∈ days, x < today) :
    Right (days ++ [today]) ⟨some today, runEnding (days ++ [today]) today,
      max u.longestStreak (runEnding (days ++ [today]) today)⟩ where
  last d hd := by
    cases hd
    refine ⟨List.mem_append_right _ (List.mem_singleton_self _), fun x hx => ?_, rfl⟩
    rcases List.mem_append.1 hx with hx | hx
    · exact Nat.le_of_lt (hlt x hx)
    · exact Nat.le_of_eq (List.mem_singleton.1 hx)
  fresh hn := by cases hn
  longest := isGreatest_concat hlt h.longest

/-- The streak that is stored is the one of today or yesterday, unless it is over. -/
theorem Right.currentRun_iff (h : Right days u) (hle : ∀ x ∈ days, x ≤ today) :
    u.currentStreak = currentRun days today ↔
      today ∈ days ∨ (∃ d ∈ days, d + 1 = today) ∨ days = [] := by
  by_cases htoday : today ∈ days
  · have hrun : currentRun days today = runEnding days today := by
      cases today with
      | zero => rfl
      | succ y => exact if_pos htoday
    exact iff_of_true (((h.of_last htoday hle).2).trans hrun.symm) (.inl htoday)
  by_cases hy : ∃ d ∈ days, d + 1 = today
  · refine iff_of_true ?_ (.inr (.inl hy))
    obtain ⟨y, hmem, rfl⟩ := hy
    have hmax : ∀ x ∈ days, x ≤ y := fun x hx =>
      Nat.le_of_lt_succ (lt_of_le_of_ne (hle x hx) fun he : x = y + 1 => htoday (he ▸ hx))
    rw [(h.of_last hmem hmax).2, currentRun, if_neg htoday, if_pos hmem]
  · -- nothing to report
    have hrun : currentRun days today = 0 := by
      cases today with
      | zero => exact runEnding_of_not_mem htoday
      | succ y => rw [currentRun, if_neg htoday, if_neg fun hmem => hy ⟨y, hmem, rfl⟩]
    rw [hrun, or_iff_right htoday, or_iff_right hy]
    cases hl : u.lastCheckin with
    | none => exact iff_of_true (h.fresh hl).2 (h.fresh hl).1
    | some d =>
      obtain ⟨hd, -, hc⟩ := h.last d hl
      have hpos := runEnding_pos hd
      refine iff_of_false (by omega) fun hnil => ?_
      rw [hnil] at hd
      cases hd

/-! ## The calls -/

/-- What a call that has recorded today has computed; `days` are the records of the days before. -/
def Computed (days : List Nat) (today : Nat) (u : UserRow) : Pc → Prop
  | .selectUser => True
  | .selectYesterday currentStreak longestStreak => u.lastCheckin.isSome ∧
    currentStreak = u.currentStreak ∧ longestStreak = u.longestStreak
  | .update newStreak newLongest => newStreak = runEnding (days ++ [today]) today ∧
    newLongest = max u.longestStreak newStreak
  | _ => False

/-- No call is between its `INSERT` and its `UPDATE`. -/
structure Settled (s : State) : Prop where
  calls : ∀ pc ∈ s.calls, pc.recorded = false
  right : Right s.records.days s.user

/-- The call `p` is between its `INSERT`, of today, and its `UPDATE`. -/
structure Pending (s : State) (p : Nat) (pc : Pc) (days : List Nat) : Prop where
  call : s.calls[p]? = some pc
  only : ∀ q x, s.calls[q]? = some x → x.recorded = true → q = p
  records : s.records.days = days ++ [s.today]
  before : ∀ x ∈ days, x < s.today
  right : Right days s.user
  computed : Computed days s.today s.user pc

/-- The records and the counters. -/
structure Inv (s : State) : Prop where
  le : ∀ d ∈ s.records.days, d ≤ s.today
  phase : Settled s ∨ ∃ p pc days, Pending s p pc days

theorem Computed.recorded (h : Computed days today u pc) : pc.recorded = true := by
  cases pc <;> first | rfl | exact h.elim

/-- A call that goes on away from its `INSERT` and its `UPDATE`. -/
theorem Inv.goto (h : Inv s) (hp : s.calls[p]? = some pc) (hpc : pc.recorded = false) {pc' : Pc}
    (hpc' : pc'.recorded = false) : Inv (s.goto p pc') := by
  refine ⟨h.le, ?_⟩
  rcases h.phase with hs | ⟨q, x, days, hq⟩
  · refine .inl ⟨fun y hy => ?_, hs.right⟩
    rcases List.mem_or_eq_of_mem_set hy with hy | rfl
    · exact hs.calls y hy
    · exact hpc'
  · have hne : pc ≠ x := fun he => by simp [he, hq.computed.recorded] at hpc
    refine .inr ⟨q, x, days, getElem?_set_of_ne hp hq.call hne, fun i y hi hy => ?_, hq.records,
      hq.before, hq.right, hq.computed⟩
    rcases getElem?_set_cases hi with ⟨rfl, rfl⟩ | ⟨-, hi⟩
    · rw [hpc'] at hy
      cases hy
    · exact hq.only i y hi hy

/-- A call that records today. -/
theorem Inv.insert (h : Inv s) (hp : s.calls[p]? = some .insert) {records : Records}
    (hr : s.records.insert s.today = some records) :
    Inv ({ s with records }.goto p .selectUser) := by
  rw [Records.insert] at hr
  split_ifs at hr with hnew
  cases hr
  have hlt : ∀ d ∈ s.records.days, d < s.today := fun d hd =>
    lt_of_le_of_ne (h.le d hd) fun he => hnew (he ▸ hd)
  refine ⟨fun d hd => ?_, ?_⟩
  · rcases List.mem_append.1 hd with hd | hd
    · exact h.le d hd
    · exact Nat.le_of_eq (List.mem_singleton.1 hd)
  rcases h.phase with hs | ⟨q, x, days, hq⟩
  · refine .inr ⟨p, .selectUser, s.records.days, getElem?_set_of_some hp, fun i y hi hy => ?_, rfl,
      hlt, hs.right, trivial⟩
    rcases getElem?_set_cases hi with ⟨rfl, -⟩ | ⟨-, hi⟩
    · rfl
    · rw [hs.calls y (List.mem_of_getElem? hi)] at hy
      cases hy
  · -- another call has recorded today already
    exact absurd (hq.records ▸ List.mem_append_right _ (List.mem_singleton_self _)) hnew

/-- A call between its `INSERT` and its `UPDATE` is the only one. -/
theorem Inv.pending (h : Inv s) (hp : s.calls[p]? = some pc) (hpc : pc.recorded = true) :
    ∃ days, Pending s p pc days := by
  rcases h.phase with hs | ⟨q, x, days, hq⟩
  · rw [hs.calls pc (List.mem_of_getElem? hp)] at hpc
    cases hpc
  · obtain rfl := hq.only p pc hp hpc
    obtain rfl := Option.some.inj (hp.symm.trans hq.call)
    exact ⟨days, hq⟩

theorem Pending.goto (h : Pending s p pc days) {pc' : Pc}
    (hpc' : Computed days s.today s.user pc') : Pending (s.goto p pc') p pc' days where
  call := getElem?_set_of_some h.call
  only q x hq hx := by
    rcases getElem?_set_cases hq with ⟨rfl, -⟩ | ⟨-, hq⟩
    · rfl
    · exact h.only q x hq hx
  records := h.records
  before := h.before
  right := h.right
  computed := hpc'

theorem Inv.selectUser (h : Inv s) (hp : s.calls[p]? = some .selectUser) :
    Inv (statement s p .selectUser) := by
  obtain ⟨days, hq⟩ := h.pending hp rfl
  refine ⟨h.le, .inr ⟨p, _, days, hq.goto ?_⟩⟩
  cases hl : s.user.lastCheckin with
  | none =>
    have hone : runEnding (days ++ [s.today]) s.today = 1 := by
      rw [hq.right.newStreak_eq hq.before, if_neg (by simp [hl])]
    exact ⟨hone.symm, rfl⟩
  | some d => exact ⟨by rw [hl]; rfl, rfl, rfl⟩

theorem Inv.selectYesterday (h : Inv s) {c l : Nat}
    (hp : s.calls[p]? = some (.selectYesterday c l)) :
    Inv (statement s p (.selectYesterday c l)) := by
  obtain ⟨days, hq⟩ := h.pending hp rfl
  refine ⟨h.le, .inr ⟨p, _, days, hq.goto ?_⟩⟩
  obtain ⟨hl, rfl, rfl⟩ := hq.computed
  refine ⟨?_, rfl⟩
  rw [hq.right.newStreak_eq hq.before, hq.records]
  simp only [hl, true_and]

theorem Inv.update (h : Inv s) {n l : Nat} (hp : s.calls[p]? = some (.update n l)) :
    Inv (statement s p (.update n l)) := by
  obtain ⟨days, hq⟩ := h.pending hp rfl
  obtain ⟨rfl, rfl⟩ := hq.computed
  refine ⟨h.le, .inl ⟨fun y hy => ?_, ?_⟩⟩
  · obtain ⟨i, hi⟩ := List.mem_iff_getElem?.1 hy
    rcases getElem?_set_cases hi with ⟨-, rfl⟩ | ⟨hne, hi⟩
    · rfl
    · exact Bool.eq_false_iff.2 fun hy => hne (hq.only i y hi hy)
  · change Right s.records.days _
    rw [hq.records]
    exact hq.right.update hq.before

theorem Inv.statement (h : Inv s) (hp : s.calls[p]? = some pc) : Inv (statement s p pc) := by
  cases pc with
  | selectToday =>
    refine h.goto hp rfl ?_
    split_ifs <;> rfl
  | insert =>
    rw [Checkin.statement]
    split
    · next records hr => exact h.insert hp hr
    · exact h.goto hp rfl rfl
  | selectUser => exact h.selectUser hp
  | selectYesterday c l => exact h.selectYesterday hp
  | update n l => exact h.update hp
  | returned checkedIn => exact h
  | threw => exact h

theorem Inv.step (h : Inv s) (hg : SameDay s a) (hs : step s a = some s') : Inv s' := by
  cases a with
  | tryCheckin =>
    cases hs
    refine ⟨h.le, ?_⟩
    rcases h.phase with hset | ⟨q, x, days, hq⟩
    · refine .inl ⟨fun y hy => ?_, hset.right⟩
      rcases List.mem_append.1 hy with hy | hy
      · exact hset.calls y hy
      · rw [List.mem_singleton.1 hy]
        rfl
    · refine .inr ⟨q, x, days, getElem?_append_of_some hq.call, fun i y hi hy => ?_, hq.records,
        hq.before, hq.right, hq.computed⟩
      rcases getElem?_concat_cases hi with hi | ⟨-, rfl⟩
      · exact hq.only i y hi hy
      · cases hy
  | statement p ok =>
    simp only [Checkin.step] at hs
    split at hs
    · cases hs
    · next pc hp =>
      split_ifs at hs with hin hok
      · cases hs
        exact h.statement hp
      · cases hs
        have hrec := hg (by simpa using hok) pc hp
        cases pc <;> first | exact h.goto hp rfl rfl | cases hrec
  | nextDay =>
    cases hs
    refine ⟨fun d hd => Nat.le_succ_of_le (h.le d hd), .inl ⟨hg, ?_⟩⟩
    rcases h.phase with hset | ⟨q, x, days, hq⟩
    · exact hset.right
    · -- The day does not end between the two statements of a check-in.
      have := hg x (List.mem_of_getElem? hq.call)
      rw [hq.computed.recorded] at this
      cases this

theorem Inv.init (h : system.init s) : Inv s := by
  obtain ⟨hdays, huser, hcalls⟩ := h
  refine ⟨by simp [hdays], .inl ⟨by simp [hcalls], ?_⟩⟩
  rw [hdays, huser]
  exact .init

/-- A statement leaves the records, or adds today. -/
theorem statement_records (s : State) (p : Nat) (pc : Pc) :
    (statement s p pc).today = s.today ∧
      ((statement s p pc).records = s.records ∨
        s.today ∈ (statement s p pc).records.days) := by
  cases pc with
  | insert =>
    rw [statement]
    split
    · next records hr =>
      rw [Records.insert] at hr
      split_ifs at hr
      cases hr
      exact ⟨rfl, .inr (List.mem_append_right _ (List.mem_singleton_self _))⟩
    · exact ⟨rfl, .inl rfl⟩
  | _ => exact ⟨rfl, .inl rfl⟩

theorem Recent.step (h : Recent s) (hg : EveryDay s a) (hs : step s a = some s') : Recent s' := by
  cases a with
  | tryCheckin =>
    cases hs
    exact h
  | statement p ok =>
    simp only [Checkin.step] at hs
    split at hs
    · cases hs
    · next pc hp =>
      split_ifs at hs
      · cases hs
        obtain ⟨htoday, hrec | hrec⟩ := statement_records s p pc
        · rw [Recent, htoday, hrec]
          exact h
        · exact .inl (htoday ▸ hrec)
      · cases hs
        cases pc <;> exact h
  | nextDay =>
    cases hs
    rcases hg.2 with htoday | hnil
    · exact .inr (.inl ⟨_, htoday, rfl⟩)
    · exact .inr (.inr hnil)

/-- `longest_streak` is the length of the longest run of days, and the streak that is reported the
    length of the run that ends today or yesterday. -/
def Agrees (s : State) : Prop :=
  IsGreatest {m | HasRun s.records.days m} s.user.longestStreak ∧
    (getStats s).currentStreak = currentRun s.records.days s.today

theorem Inv.quiet (h : Inv s) (hq : Quiet s) :
    IsGreatest {m | HasRun s.records.days m} s.user.longestStreak ∧
      ((getStats s).currentStreak = currentRun s.records.days s.today ↔ Recent s) := by
  rcases h.phase with hset | ⟨p, pc, days, hp⟩
  · exact ⟨hset.right.longest, hset.right.currentRun_iff h.le⟩
  · have hdone := hq pc (List.mem_of_getElem? hp.call)
    have hrec := hp.computed.recorded
    cases pc <;> simp [Pc.inProgress, Pc.recorded] at hdone hrec

/-- In every run in which a call that has recorded its day goes through to its `UPDATE` on the same
    day: whenever no call is in progress, `longest_streak` is right, and the streak that is
    reported is right exactly if today or yesterday is recorded or nothing is. So if moreover no
    day ends without a check-in, once there was one, both are right whenever no call is in
    progress. -/
theorem streaks_right (s : State) :
    (system.Reach SameDay s → Quiet s →
      IsGreatest {m | HasRun s.records.days m} s.user.longestStreak ∧
        ((getStats s).currentStreak = currentRun s.records.days s.today ↔ Recent s)) ∧
    (system.Reach EveryDay s → Quiet s → Agrees s) := by
  have hweak : ∀ s a, EveryDay s a → SameDay s a := by
    intro s a h
    cases a with
    | nextDay => exact h.1
    | _ => exact h
  have hinv : system.Reach SameDay s → Inv s := fun h =>
    h.invariant (fun _ => Inv.init) fun _ _ _ ht hg hs => ht.step hg hs
  refine ⟨fun h hq => (hinv h).quiet hq, fun h hq => ?_⟩
  have hrecent : Recent s :=
    h.invariant (fun s hs => .inr (.inr hs.1)) fun _ _ _ ht hg hs => Recent.step ht hg hs
  obtain ⟨hlong, hcur⟩ := (hinv (h.mono hweak)).quiet hq
  exact ⟨hlong, hcur.2 hrecent⟩

/-- A user without records, on the day `100`. -/
def newUser : State := ⟨100, ⟨[], List.nodup_nil⟩, ⟨none, 0, 0⟩, []⟩

theorem init_newUser : system.init newUser := ⟨rfl, rfl, rfl⟩

/-- The statements of the call `p`, in its first or a later check-in. -/
def firstCheckin (p : Nat) : List Action :=
  [.tryCheckin, .statement p true, .statement p true, .statement p true, .statement p true]

/-- Two check-ins at the same time, and one on the next day. -/
theorem streaks_right_two : ∃ s : State, s.user = ⟨some 101, 2, 2⟩ ∧ Agrees s := by
  obtain ⟨s, hl, hs⟩ := System.exists_exec_of_runGuarded (S := system) (G := EveryDay)
    (s := newUser) (l := ([.tryCheckin, .tryCheckin, .statement 0 true, .statement 1 true,
      .statement 0 true, .statement 1 true, .statement 0 true, .statement 0 true, .nextDay] :
        List Action) ++ firstCheckin 2 ++ ([.statement 2 true] : List Action))
    (p := fun s => s.user = ⟨some 101, 2, 2⟩ ∧ Quiet s) (by decide +kernel)
  obtain ⟨hu, hq⟩ := of_decide_eq_true hs
  exact ⟨s, hu, (streaks_right s).2 ⟨_, _, init_newUser, hl⟩ hq⟩

/-- The user stays away for two days, and the streak is still reported. And a check-in whose
    `UPDATE` fails is in no streak. -/
theorem streaks_wrong :
    (∃ s, system.Reach SameDay s ∧ Quiet s ∧
      (getStats s).currentStreak ≠ currentRun s.records.days s.today) ∧
    ∃ s, system.Reach System.Always s ∧ Quiet s ∧
      ¬IsGreatest {m | HasRun s.records.days m} s.user.longestStreak := by
  constructor
  · obtain ⟨s, hl, hs⟩ := System.exists_exec_of_runGuarded (S := system) (G := SameDay)
      (s := newUser) (l := firstCheckin 0 ++ ([.nextDay, .nextDay] : List Action))
      (p := fun s => Quiet s ∧ (getStats s).currentStreak = 1 ∧
        currentRun s.records.days s.today = 0) (by decide +kernel)
    obtain ⟨hq, hc, hr⟩ := of_decide_eq_true hs
    exact ⟨s, ⟨_, _, init_newUser, hl⟩, hq, by rw [hc, hr]; decide⟩
  · obtain ⟨s, hl, hs⟩ := System.exists_exec_of_run (S := system) (s := newUser)
      (l := [.tryCheckin, .statement 0 true, .statement 0 true, .statement 0 true,
        .statement 0 false])
      (p := fun s => Quiet s ∧ s.records.days = [100] ∧ s.user.longestStreak = 0)
      (by decide +kernel)
    obtain ⟨hq, hd, hlong⟩ := of_decide_eq_true hs
    refine ⟨s, ⟨_, _, init_newUser, hl⟩, hq, fun h => ?_⟩
    have hone : HasRun s.records.days 1 := ⟨100, fun i hi => by
      rw [hd, show 100 + i = 100 by omega]
      exact List.mem_singleton_self _⟩
    have := h.2 hone
    rw [hlong] at this
    exact absurd this (by decide)

end LiteCode.Checkin
