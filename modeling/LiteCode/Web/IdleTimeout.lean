import Mathlib.Data.List.DropRight
import LiteCode.Lib.System

/-!
# Logging out an idle user

`src/web/js/idle-timeout.js`. A timer looks every 30 seconds how long ago the last activity of the
user was. Shortly before the time is over it is to show a modal, "only once when idle crosses the
threshold", in which the user may stay; when the time is over it logs out. The modal is made when it
is needed for the first time, by `showModal`; but `tick` calls `showModal` only if there is a modal
already.

A step is an event of the page, or the passing of time.

* `State`, `page`: the page, with a log of what happens;
* `Lawful`: a timeout is announced since the last activity, an activity puts it off, and leaves the
  modal hidden;
* `Inv`: there is no modal, an invariant; `Inv.lawful_iff_silent`: hence no timeout is announced;
* `lawful_iff`: a run is lawful exactly if no tick of the running timer finds the time over.
-/

namespace LiteCode.IdleTimeout

/-! ## The page -/

/-- The modal: whether it is hidden, and the minutes in its text. -/
structure Modal where
  hidden : Bool
  remainingMin : Option Int
  deriving DecidableEq, Repr

/-- What happens, with the time. -/
inductive Event
  /-- The user does something, or wants to stay, or the time is reset. -/
  | active (time : Int)
  /-- The modal is shown. -/
  | shown (time : Int)
  /-- The timer logs out. -/
  | timedOut (time timeoutMs : Int)
  /-- The user logs out. -/
  | loggedOut (time : Int)
  deriving DecidableEq, Repr

/-- The variables of the page. -/
structure State where
  now : Int
  running : Bool
  timeoutMs : Int
  warnBeforeMs : Int
  lastActivity : Int
  warnEl : Option Modal
  /-- The listeners are attached; `stop` leaves them. -/
  listening : Bool
  /-- The last tick, or the start of the timer. -/
  lastTick : Int
  log : List Event
  deriving DecidableEq, Repr

/-- `DEFAULTS.timeoutMs`. -/
def defaultTimeoutMs : Int := 60 * 60 * 1000

/-- `DEFAULTS.warnBeforeMs`. -/
def defaultWarnBeforeMs : Int := 5 * 60 * 1000

/-- `DEFAULTS.checkEveryMs`. -/
def checkEveryMs : Int := 30 * 1000

/-- The page when it is loaded. -/
def load (now : Int) : State where
  now := now
  running := false
  timeoutMs := defaultTimeoutMs
  warnBeforeMs := defaultWarnBeforeMs
  lastActivity := now
  warnEl := none
  listening := false
  lastTick := now
  log := []

/-- The modal can be seen. -/
def State.visible (s : State) : Bool := s.warnEl.any fun m => !m.hidden

/-! ## Functions -/

/-- `ensureModal`. -/
def ensureModal (s : State) : Modal := s.warnEl.getD ⟨true, none⟩

/-- `showModal`. -/
def showModal (s : State) (remainingMin : Int) : State :=
  { s with
    warnEl := some { ensureModal s with hidden := false, remainingMin := some remainingMin }
    log := s.log ++ [.shown s.now] }

/-- `hideModal`. -/
def hideModal (s : State) : State :=
  { s with warnEl := s.warnEl.map fun m => { m with hidden := true } }

/-- `forceLogout`. -/
def forceLogout (s : State) (e : Event) : State := { s with log := s.log ++ [e] }

/-- `onActivity`. -/
def onActivity (s : State) : State :=
  { s with lastActivity := s.now, log := s.log ++ [.active s.now] }

/-- `reset`. -/
def reset (s : State) : State := hideModal (onActivity s)

/-- `Math.ceil` of milliseconds in minutes. -/
def ceilMin (ms : Int) : Int := -(-ms / 60000)

/-- `tick`. -/
def tick (s : State) : State :=
  if !s.running then s
  else
    let idle := s.now - s.lastActivity
    if s.timeoutMs ≤ idle then forceLogout (hideModal s) (.timedOut s.now s.timeoutMs)
    else if s.timeoutMs - s.warnBeforeMs ≤ idle then
      -- a modal that has not been made is not shown
      if s.warnEl.any Modal.hidden then showModal s (max 1 (ceilMin (s.timeoutMs - idle))) else s
    else s

/-- The options of `start`. -/
structure Opts where
  timeoutMs : Option Int
  warnBeforeMs : Option Int
  deriving DecidableEq, Repr

/-- `value || byDefault`. -/
def orDefault (value : Option Int) (byDefault : Int) : Int :=
  match value with
  | none | some 0 => byDefault
  | some n => n

/-- `start`; the user may be logged in or not. -/
def start (opts : Opts) (logged : Bool) (s : State) : State :=
  if s.running then s
  else
    let s := onActivity { s with
      timeoutMs := orDefault opts.timeoutMs defaultTimeoutMs
      warnBeforeMs := orDefault opts.warnBeforeMs defaultWarnBeforeMs }
    if logged then { s with listening := true, running := true, lastTick := s.now } else s

/-- `stop`. -/
def stop (s : State) : State :=
  if s.running then hideModal { s with running := false } else s

/-! ## Steps -/

inductive Action
  | pass (ms : Nat)
  | start (opts : Opts) (logged : Bool)
  | stop
  | reset
  /-- An activity of the user. -/
  | activity
  /-- The key that closes the modal. -/
  | escape
  | tick
  /-- The button to stay. -/
  | stay
  /-- The button to log out, or the backdrop. -/
  | logout
  deriving DecidableEq, Repr

def step (s : State) : Action → Option State
  | .pass ms => some { s with now := s.now + ms }
  | .start opts logged => some (start opts logged s)
  | .stop => some (stop s)
  | .reset => some (reset s)
  | .activity => some (if s.listening then onActivity s else s)
  -- the key is an activity, too
  | .escape => some (if s.listening then onActivity (if s.visible then reset s else s) else s)
  | .tick => some { tick s with lastTick := s.now }
  | .stay => if s.visible then some (reset (hideModal s)) else none
  | .logout => if s.visible then some (forceLogout s (.loggedOut s.now)) else none

def page : System State Action where
  init s := ∃ now, s = load now
  step := step

/-! ## What is meant -/

/-- An activity puts a timeout off. -/
def PutsOff : Event → Event → Prop
  | .active a, .timedOut t timeoutMs => a + timeoutMs ≤ t
  | _, _ => True

def Event.isActive : Event → Bool
  | .active _ => true
  | _ => false

structure Lawful (s : State) : Prop where
  /-- Between the last activity and a timeout, the modal has been shown. -/
  announced : ∀ before after t timeoutMs, s.log = before ++ .timedOut t timeoutMs :: after →
    ∃ t', .shown t' ∈ before.rtakeWhile fun e => !e.isActive
  /-- Before a timeout, there is no activity for the whole time. -/
  putOff : s.log.Pairwise PutsOff
  /-- After an activity, the modal is hidden. -/
  hidden : s.log.getLast?.any Event.isActive = true → s.visible = false

/-- The ticks come in time, and the modal is to be shown for at least one of them. -/
def Timely (s : State) : Action → Prop
  | .pass ms => s.running = true → s.now + ms ≤ s.lastTick + checkEveryMs
  | .start opts _ => checkEveryMs ≤ orDefault opts.warnBeforeMs defaultWarnBeforeMs
  | _ => True

/-- A tick of the running timer does not find the time over. -/
def Early (s : State) (a : Action) : Prop :=
  a = .tick → s.running = true → s.now - s.lastActivity < s.timeoutMs

instance (s : State) (a : Action) : Decidable (Early s a) :=
  inferInstanceAs (Decidable (_ → _ → _))

instance (s : State) (a : Action) : Decidable (Timely s a) :=
  match a with
  | .pass _ => inferInstanceAs (Decidable (_ → _))
  | .start _ _ => inferInstanceAs (Decidable (_ ≤ _))
  | .stop | .reset | .activity | .escape | .tick | .stay | .logout =>
    inferInstanceAs (Decidable True)

/-! ## There is no modal -/

variable {s s' s₀ : State} {a : Action} {l : List Action}

/-- The modal is not there, and it has never been. -/
structure Inv (s : State) : Prop where
  warnEl : s.warnEl = none
  not_shown : ∀ t, .shown t ∉ s.log
  active_le : ∀ t, .active t ∈ s.log → t ≤ s.lastActivity
  lastActivity_le : s.lastActivity ≤ s.now
  putOff : s.log.Pairwise PutsOff

theorem Inv.visible (h : Inv s) : s.visible = false := by
  rw [State.visible, h.warnEl]
  rfl

/-- There is no modal to hide. -/
theorem Inv.hideModal_eq (h : Inv s) : hideModal s = s := by
  have hnone : (s.warnEl.map fun m => { m with hidden := true }) = s.warnEl := by
    rw [h.warnEl]
    rfl
  rw [hideModal, hnone]

/-- The page is loaded without a modal. -/
theorem inv_load (now : Int) : Inv (load now) where
  warnEl := rfl
  not_shown _ := List.not_mem_nil
  active_le _ h := absurd h List.not_mem_nil
  lastActivity_le := Int.le_refl now
  putOff := .nil

/-- There has been no timeout. -/
def Silent (log : List Event) : Prop := ∀ t timeoutMs, .timedOut t timeoutMs ∉ log

/-- A log stays silent unless the session times out. -/
theorem silent_concat {log : List Event} {e : Event} :
    Silent (log ++ [e]) ↔ Silent log ∧ ∀ t timeoutMs, e ≠ .timedOut t timeoutMs := by
  simp only [Silent, List.mem_append, List.mem_singleton, not_or, forall_and, ne_comm, ne_eq]

/-- Activity is silent. -/
theorem silent_onActivity : Silent (onActivity s).log ↔ Silent s.log := by
  rw [onActivity, silent_concat, and_iff_left]
  rintro t timeoutMs ⟨⟩

/-- Activity keeps the invariant. -/
theorem Inv.onActivity (h : Inv s) : Inv (onActivity s) where
  warnEl := h.warnEl
  not_shown t ht := by
    rcases List.mem_append.1 ht with ht | ht
    · exact h.not_shown t ht
    · cases List.mem_singleton.1 ht
  active_le t ht := by
    rcases List.mem_append.1 ht with ht | ht
    · exact Int.le_trans (h.active_le t ht) h.lastActivity_le
    · cases List.mem_singleton.1 ht
      exact Int.le_refl s.now
  lastActivity_le := Int.le_refl s.now
  putOff := by
    refine List.pairwise_append.2 ⟨h.putOff, List.pairwise_singleton .., fun e _ e' he' => ?_⟩
    cases List.mem_singleton.1 he'
    cases e <;> trivial

/-- So does a reset. -/
theorem Inv.reset (h : Inv s) : Inv (reset s) := by
  rw [IdleTimeout.reset, h.onActivity.hideModal_eq]
  exact h.onActivity

/-- A tick only looks whether the time is over. -/
theorem Inv.tick_eq (h : Inv s) : tick s =
    if !s.running then s
    else if s.timeoutMs ≤ s.now - s.lastActivity then
      forceLogout s (.timedOut s.now s.timeoutMs)
    else s := by
  rw [tick, h.hideModal_eq]
  simp only [h.warnEl, Option.any_none, Bool.false_eq_true, if_false, ite_self]

/-- A tick does nothing, or logs out. -/
theorem Inv.tick_cases (h : Inv s) :
    (tick s = s ∧ Early s .tick) ∨
      (¬Early s .tick ∧ s.timeoutMs ≤ s.now - s.lastActivity ∧
        tick s = forceLogout s (.timedOut s.now s.timeoutMs)) := by
  rw [h.tick_eq]
  cases hr : s.running with
  | false => exact .inl ⟨rfl, fun _ hrun => absurd (hr.symm.trans hrun) Bool.false_ne_true⟩
  | true =>
    rw [Bool.not_true, if_neg Bool.false_ne_true]
    split_ifs with hover
    · exact .inr ⟨fun hearly => absurd (hearly rfl hr) (Int.not_lt.2 hover), hover, rfl⟩
    · exact .inl ⟨rfl, fun _ _ => Int.not_le.1 hover⟩

/-- A tick keeps the invariant. -/
theorem Inv.tick (h : Inv s) : Inv (tick s) := by
  rcases h.tick_cases with ⟨heq, -⟩ | ⟨-, hover, heq⟩
  · rw [heq]
    exact h
  rw [heq]
  refine ⟨h.warnEl, fun t ht => ?_, fun t ht => ?_, h.lastActivity_le, ?_⟩
  · rcases List.mem_append.1 ht with ht | ht
    · exact h.not_shown t ht
    · cases List.mem_singleton.1 ht
  · rcases List.mem_append.1 ht with ht | ht
    · exact h.active_le t ht
    · cases List.mem_singleton.1 ht
  · refine List.pairwise_append.2 ⟨h.putOff, List.pairwise_singleton .., fun e he e' he' => ?_⟩
    cases List.mem_singleton.1 he'
    cases e with
    | active a =>
      -- the last activity is not earlier, and the time is over since then
      have := h.active_le a he
      rw [PutsOff]
      omega
    | shown t => trivial
    | timedOut t timeoutMs => trivial
    | loggedOut t => trivial

/-- So does a start, in silence. -/
theorem Inv.start (h : Inv s) (opts : Opts) (logged : Bool) :
    Inv (start opts logged s) ∧ (Silent (start opts logged s).log ↔ Silent s.log) := by
  rw [IdleTimeout.start]
  split_ifs
  · exact ⟨h, Iff.rfl⟩
  all_goals
    have hset := (show Inv { s with
      timeoutMs := orDefault opts.timeoutMs defaultTimeoutMs
      warnBeforeMs := orDefault opts.warnBeforeMs defaultWarnBeforeMs } from
        ⟨h.warnEl, h.not_shown, h.active_le, h.lastActivity_le, h.putOff⟩).onActivity
    exact ⟨⟨hset.warnEl, hset.not_shown, hset.active_le, hset.lastActivity_le, hset.putOff⟩,
      silent_onActivity⟩

/-- So does a stop. -/
theorem Inv.stop (h : Inv s) : Inv (stop s) ∧ (stop s).log = s.log := by
  rw [IdleTimeout.stop]
  split_ifs
  · have hset : Inv { s with running := false } :=
      ⟨h.warnEl, h.not_shown, h.active_le, h.lastActivity_le, h.putOff⟩
    rw [hset.hideModal_eq]
    exact ⟨hset, rfl⟩
  · exact ⟨h, rfl⟩

theorem early_of_ne (h : a ≠ .tick) : Early s a := fun ha => absurd ha h

/-- A tick that comes too late is the only step with a timeout. -/
theorem Inv.silent_tick (h : Inv s) :
    Silent (IdleTimeout.tick s).log ↔ Silent s.log ∧ Early s .tick := by
  rcases h.tick_cases with ⟨heq, hearly⟩ | ⟨hlate, -, heq⟩
  · rw [heq, and_iff_left hearly]
  · rw [heq]
    refine iff_of_false (fun hsilent => ?_) fun hand => hlate hand.2
    exact (silent_concat.1 hsilent).2 _ _ rfl

/-- Every step keeps the invariant, and only a late tick is not silent. -/
theorem Inv.step (h : Inv s) (hs : step s a = some s') :
    Inv s' ∧ (Silent s'.log ↔ Silent s.log ∧ Early s a) := by
  have hother : ∀ {t : State}, a ≠ .tick → Inv t → (Silent t.log ↔ Silent s.log) →
      Inv t ∧ (Silent t.log ↔ Silent s.log ∧ Early s a) := fun ha ht hlog =>
    ⟨ht, hlog.trans (and_iff_left (early_of_ne ha)).symm⟩
  cases a <;> rw [IdleTimeout.step] at hs
  case pass ms =>
    cases hs
    have hnow := Int.le_add_of_nonneg_right (a := s.now) (Int.natCast_nonneg ms)
    exact hother Action.noConfusion
      ⟨h.warnEl, h.not_shown, h.active_le, Int.le_trans h.lastActivity_le hnow, h.putOff⟩ Iff.rfl
  case start opts logged =>
    cases hs
    exact hother Action.noConfusion (h.start opts logged).1 (h.start opts logged).2
  case stop =>
    cases hs
    exact hother Action.noConfusion h.stop.1 (by rw [h.stop.2])
  case reset =>
    cases hs
    refine hother Action.noConfusion h.reset ?_
    exact silent_onActivity
  case activity =>
    cases hs
    split_ifs
    · exact hother Action.noConfusion h.onActivity silent_onActivity
    · exact hother Action.noConfusion h Iff.rfl
  case escape =>
    rw [h.visible, if_neg Bool.false_ne_true] at hs
    cases hs
    split_ifs
    · exact hother Action.noConfusion h.onActivity silent_onActivity
    · exact hother Action.noConfusion h Iff.rfl
  case tick =>
    cases hs
    exact ⟨⟨h.tick.warnEl, h.tick.not_shown, h.tick.active_le, h.tick.lastActivity_le,
      h.tick.putOff⟩, h.silent_tick⟩
  -- the buttons cannot be seen
  all_goals
    rw [h.visible, if_neg Bool.false_ne_true] at hs
    cases hs

/-! ## Runs -/

/-- The invariant holds in every execution. -/
theorem inv_of_exec {G : State → Action → Prop} (h₀ : page.init s₀) (h : page.Exec G s₀ l s) :
    Inv s := by
  obtain ⟨now, rfl⟩ := h₀
  exact h.invariant (inv_load now) fun t a t' ht _ hs => (ht.step hs).1

/-- No timeout is announced. -/
theorem Inv.lawful_iff_silent (h : Inv s) : Lawful s ↔ Silent s.log := by
  constructor
  · intro hlawful t timeoutMs hmem
    obtain ⟨before, after, hlog⟩ := List.append_of_mem hmem
    obtain ⟨t', ht'⟩ := hlawful.announced before after t timeoutMs hlog
    -- what stands behind the last activity is a part of the log
    have hshown : .shown t' ∈ before := (List.rtakeWhile_suffix _ before).subset ht'
    refine h.not_shown t' ?_
    rw [hlog]
    exact List.mem_append_left _ hshown
  · intro hsilent
    refine ⟨fun before after t timeoutMs hlog => ?_, h.putOff, fun _ => h.visible⟩
    refine absurd ?_ (hsilent t timeoutMs)
    rw [hlog]
    exact List.mem_append_right _ List.mem_cons_self

/-- There is no timeout if no tick comes too late. -/
theorem silent_of_exec (h₀ : page.init s₀) (h : page.Exec Early s₀ l s) : Silent s.log := by
  obtain ⟨now, rfl⟩ := h₀
  refine (h.invariant (P := fun t => Inv t ∧ Silent t.log)
    ⟨inv_load now, fun _ _ => List.not_mem_nil⟩ ?_).2
  rintro t a t' ⟨hinv, hsilent⟩ hearly hs
  obtain ⟨hinv', hiff⟩ := hinv.step hs
  exact ⟨hinv', hiff.2 ⟨hsilent, hearly⟩⟩

/-- If there is no timeout, no tick has come too late. -/
theorem exec_of_silent (h₀ : page.init s₀) (h : page.Exec System.Always s₀ l s)
    (hsilent : Silent s.log) : page.Exec Early s₀ l s := by
  induction h with
  | nil => exact .nil _
  | snoc h _ hs ih =>
    obtain ⟨hbefore, hearly⟩ := ((inv_of_exec h₀ h).step hs).2.1 hsilent
    exact .snoc (ih hbefore) hearly hs

/-- A run is lawful exactly if no tick of the running timer finds the time over. -/
theorem lawful_iff (s₀ s : State) (l : List Action) (h₀ : page.init s₀)
    (h : page.Exec System.Always s₀ l s) : Lawful s ↔ page.Exec Early s₀ l s := by
  rw [(inv_of_exec h₀ h).lawful_iff_silent]
  exact ⟨exec_of_silent h₀ h, silent_of_exec h₀⟩

/-- A user who does something every 30 seconds. -/
theorem lawful_iff_active : ∃ s, Lawful s ∧ s.running = true ∧ s.now = 60000 := by
  obtain ⟨s, hs, hp⟩ := System.exists_exec_of_runGuarded (S := page) (G := Early) (s := load 0)
    (l := [.start ⟨some 60000, some 30000⟩ true, .pass 30000, .activity, .tick, .pass 30000, .tick])
    (p := fun s => s.running && s.now == 60000) (by decide)
  have halways : page.Exec System.Always (load 0) _ s := hs.mono fun _ _ _ => trivial
  rw [Bool.and_eq_true, beq_iff_eq] at hp
  exact ⟨s, (lawful_iff _ s _ ⟨0, rfl⟩ halways).2 hs, hp⟩

/-- A user who does nothing is logged out without a warning. -/
theorem not_lawful : ¬∀ s, page.Reach Timely s → Lawful s := by
  intro h
  obtain ⟨s, hs, hp⟩ := System.exists_exec_of_runGuarded (S := page) (G := Timely) (s := load 0)
    (l := [.start ⟨some 60000, some 30000⟩ true, .pass 30000, .tick, .pass 30000, .tick])
    (p := fun s => s.log == [.active 0, .timedOut 60000 60000]) (by decide)
  have hlawful := h s ⟨load 0, _, ⟨0, rfl⟩, hs⟩
  rw [beq_iff_eq] at hp
  refine ((inv_of_exec ⟨0, rfl⟩ hs).lawful_iff_silent.1 hlawful) 60000 60000 ?_
  rw [hp]
  decide

end LiteCode.IdleTimeout
