import LiteCode.Lib.ListIndex
import LiteCode.Scheduler.WarmPool

/-!
# Refilling the pool while docker is down

From some moment on every `create` fails, and there is no `release`, `start` or `shutdown`:
`Outage` has the steps of the refill thread and, if `acq`, those of `acquire` calls. The refill
thread is to come to rest after finitely many steps, having made at most `attempts` calls of
`create` for each container that is missing (`BoundedRefill`).

With two containers missing or more, `refill_loop` tries again and again in its inner loop. With
one it leaves the inner loop, and the wait predicate, which asks for the same gap, is true. So the
thread comes to rest only if nothing is missing when it looks (`Settles`).

* `refillLoop_eq`: what the thread does next, during an outage;
* `after_fuel`: with nothing missing each step uses fuel;
* `spins`: with a container missing the thread goes on for ever;
* `boundedRefill_iff`: the exact condition, in every reachable state.
-/

namespace LiteCode.WarmPool

/-- The refill thread is about to call `create`. -/
def State.calls (s : State) : Bool :=
  match s.refill with
  | some (.awake (.attempt _ _ _)) => !s.shuttingDown
  | _ => false

/-- From `s` to `s'` during an outage, with `n` steps of the refill thread and `k` calls of
    `create` that it makes. Containers may be acquired if `acq`. -/
inductive Outage (hasClient acq : Bool) (s : State) : Nat → Nat → State → Prop
  | nil : Outage hasClient acq s 0 0 s
  | acquire {n k : Nat} {t t' : State} : Outage hasClient acq s n k t → acq = true →
      step hasClient t .acquire = some t' → Outage hasClient acq s n k t'
  | take {n k p : Nat} {t t' : State} : Outage hasClient acq s n k t → acq = true →
      step hasClient t (.take p) = some t' → Outage hasClient acq s n k t'
  | fallback {n k p : Nat} {r : Option Bytes} {t t' : State} : Outage hasClient acq s n k t →
      made r = none → step hasClient t (.fallback p r) = some t' → Outage hasClient acq s n k t'
  /-- The call of `create` fails at the step after the one that makes it. -/
  | refill {n k : Nat} {r : Option Bytes} {t t' : State} : Outage hasClient acq s n k t →
      made r = none → step hasClient t (.refill r) = some t' →
      Outage hasClient acq s (n + 1) (k + if t.calls then 1 else 0) t'

/-- The refill thread comes to rest, having made at most `attempts` calls of `create` for each
    container that is missing by then. -/
def BoundedRefill (hasClient acq : Bool) (s : State) : Prop :=
  ∃ N, ∀ n k s', Outage hasClient acq s n k s' →
    n ≤ N ∧ k ≤ attempts s.cfg * (s'.target - s'.idle.length)

/-! ## When the thread comes to rest -/

/-- The refill thread is blocked, about to block, or not there. -/
def AtRest (s : State) : Prop :=
  ∀ w ∈ s.refill, w = .blocked ∨ w = .holding ∨ w = .awake .exited

/-- A call of `create` is due for the container in hand. -/
def RefillPc.Due (hasClient : Bool) (cfg : PoolConfig) : RefillPc → Prop
  | .below _ _ => hasClient = true
  | .attempt _ _ _ => True
  | .creating _ _ i => i + 1 < attempts cfg
  | _ => False

def Due (hasClient : Bool) (s : State) : Prop :=
  ∃ pc, s.refill = some (.awake pc) ∧ pc.Due hasClient s.cfg

/-- The containers that are sure to stay in the pool. -/
def kept (acq : Bool) (s : State) : Nat := if acq then 0 else s.idle.length

/-- The refill thread is at rest, or `shutdown` has told it to leave, or no container is missing
    and none is in hand. -/
def Settles (hasClient acq : Bool) (s : State) : Prop :=
  AtRest s ∨ s.shuttingDown = true ∨ ¬ Due hasClient s ∧ s.target ≤ kept acq s

/-! ## The next step of the thread -/

/-- The refill thread after its next step, when `create` fails. -/
def after (hasClient : Bool) (s : State) : Refill → Option Refill
  | .blocked => none
  | .holding => some .blocked
  | .awake .head => some (.awake (if s.shuttingDown then .exited else .ready))
  | .awake .ready => some (.awake (if s.shuttingDown then .woken else .sizing))
  | .awake .sizing => some (if s.idle.length < s.target then .awake .woken else .holding)
  | .awake .woken => some (.awake (if s.shuttingDown then .exited else .gap))
  | .awake .gap =>
    some (.awake (if s.target ≤ s.idle.length then .head else .below s.idle.length s.target))
  | .awake (.below cur tgt) => some (.awake (if s.shuttingDown then .head
      else if hasClient then .attempt cur tgt 0 else .gaveUp cur tgt))
  | .awake (.attempt cur tgt i) =>
    some (.awake (if s.shuttingDown then .gaveUp cur tgt else .creating cur tgt i))
  | .awake (.creating cur tgt i) =>
    some (.awake (if i + 1 < attempts s.cfg then .attempt cur tgt (i + 1) else .gaveUp cur tgt))
  | .awake (.gaveUp cur tgt) => some (.awake (if tgt ≤ cur + 1 then .head else .gap))
  | .awake .exited => none

variable {hasClient acq : Bool} {s s' t t' : State} {w w' : Refill} {r : Option Bytes} {n k : Nat}

/-- When `create` fails, a step of the thread changes nothing but where the thread is. -/
theorem refillLoop_eq (hr : made r = none) : refillLoop hasClient s r =
    (s.refill.bind (after hasClient s)).map fun w => { s with refill := some w } := by
  rw [refillLoop]
  cases s.refill with
  | none => rfl
  | some w =>
    cases w with
    | blocked => rfl
    | holding => rfl
    | awake pc =>
      cases pc with
      | sizing =>
        simp only [Option.bind_some, after]
        split_ifs <;> rfl
      | creating cur tgt i =>
        simp only [hr]
        rfl
      | _ => rfl

/-- A step of the thread. -/
theorem step_refill (hu : s.undefined = false) (hr : made r = none) :
    step hasClient s (.refill r) = some s' ↔
      ∃ w w', s.refill = some w ∧ after hasClient s w = some w' ∧
        s' = { s with refill := some w' } := by
  have hstep : step hasClient s (.refill r) = refillLoop hasClient s r := by
    rw [step, hu, if_neg nofun]
  rw [hstep, refillLoop_eq hr]
  simp only [Option.map_eq_some_iff, Option.bind_eq_some_iff]
  constructor
  · rintro ⟨w', ⟨w, hw, hw'⟩, rfl⟩
    exact ⟨w, w', hw, hw', rfl⟩
  · rintro ⟨w, w', hw, hw', rfl⟩
    exact ⟨w', ⟨w, hw, hw'⟩, rfl⟩

/-- The thread can always take a step unless it is blocked or not there. -/
theorem after_isSome : (after hasClient s w).isSome ↔ w ≠ .blocked ∧ w ≠ .awake .exited := by
  cases w with
  | awake pc => cases pc <;> simp [after]
  | holding => simp [after]
  | blocked => simp [after]

/-! ## With nothing missing -/

/-- How many steps the thread takes at most, if nothing is missing or `shutdown` has set its
    flag. -/
def fuel (flag : Bool) (a : Nat) : Refill → Nat
  | .blocked => 0
  | .holding => 1
  | .awake .exited => 0
  | .awake .sizing => 2
  | .awake .ready => 3
  | .awake .head => 4
  | .awake .woken => if flag then 1 else 7
  | .awake (.below _ _) => if flag then 5 else 2 * a + 10
  | .awake .gap => 6
  | .awake (.gaveUp _ _) => 7
  | .awake (.creating _ _ i) => 2 * (a - i) + 8
  | .awake (.attempt _ _ i) => 2 * (a - i) + 9

theorem after_fuel (ha : after hasClient s w = some w')
    (h : w = .holding ∨ s.shuttingDown = true ∨ s.target ≤ s.idle.length) :
    fuel s.shuttingDown (attempts s.cfg) w' < fuel s.shuttingDown (attempts s.cfg) w := by
  cases w with
  | blocked => cases ha
  | holding =>
    cases ha
    exact Nat.zero_lt_one
  | awake pc =>
    have h := h.resolve_left nofun
    cases pc <;> cases ha <;> grind [fuel]

/-- No call becomes due while nothing is missing. -/
theorem due_of_after {pc' : RefillPc} (ha : after hasClient s w = some (.awake pc'))
    (hd : pc'.Due hasClient s.cfg) (hle : s.target ≤ s.idle.length) :
    s.shuttingDown = true ∨ ∃ pc, w = .awake pc ∧ pc.Due hasClient s.cfg := by
  cases w with
  | blocked => cases ha
  | holding => cases ha
  | awake pc => cases pc <;> grind [RefillPc.Due, after]

/-! ## What an outage leaves as it is -/

theorem step_acquire (h : step hasClient s .acquire = some s') :
    ∃ acquires, s' = { s with acquires } := by
  rw [step] at h
  split_ifs at h
  cases h
  exact ⟨_, rfl⟩

theorem step_take {p : Nat} (h : step hasClient s (.take p) = some s') :
    ∃ acquires idle, s' = { s with acquires, idle } := by
  simp only [step, take] at h
  split_ifs at h
  split at h
  · split at h
    · cases h
      exact ⟨_, s.idle, rfl⟩
    · cases h
      exact ⟨_, _, rfl⟩
  · cases h

theorem step_fallback {p : Nat} (h : step hasClient s (.fallback p r) = some s') :
    ∃ acquires, s' = { s with acquires } := by
  simp only [step, WarmPool.fallback] at h
  split_ifs at h
  all_goals
    split at h
    · cases h
      exact ⟨_, rfl⟩
    · cases h

/-- An outage changes the `acquire` calls, the pool and the refill thread, and the pool only
    if containers may be acquired. -/
theorem Outage.eq (hu : s.undefined = false) (h : Outage hasClient acq s n k s') :
    ∃ acquires idle refill, s' = { s with acquires, idle, refill } ∧
      (acq = false → idle = s.idle) := by
  induction h with
  | nil => exact ⟨_, _, _, rfl, fun _ => rfl⟩
  | acquire _ _ hs ih =>
    obtain ⟨_, idle, refill, rfl, hi⟩ := ih
    obtain ⟨acquires, rfl⟩ := step_acquire hs
    exact ⟨acquires, idle, refill, rfl, hi⟩
  | take _ ha hs ih =>
    obtain ⟨_, _, refill, rfl, -⟩ := ih
    obtain ⟨acquires, idle, rfl⟩ := step_take hs
    exact ⟨acquires, idle, refill, rfl, fun hn => by rw [hn] at ha; cases ha⟩
  | fallback _ _ hs ih =>
    obtain ⟨_, idle, refill, rfl, hi⟩ := ih
    obtain ⟨acquires, rfl⟩ := step_fallback hs
    exact ⟨acquires, idle, refill, rfl, hi⟩
  | refill _ hr hs ih =>
    obtain ⟨acquires, idle, refill, rfl, hi⟩ := ih
    obtain ⟨_, w', _, _, rfl⟩ :=
      (step_refill (s := { s with acquires, idle, refill }) hu hr).1 hs
    exact ⟨acquires, idle, some w', rfl, hi⟩

/-- What is sure to stay is there. -/
theorem Outage.kept_le (hu : s.undefined = false) (h : Outage hasClient acq s n k s') :
    kept acq s ≤ s'.idle.length := by
  obtain ⟨_, _, _, rfl, hi⟩ := h.eq hu
  cases acq with
  | true => exact Nat.zero_le _
  | false => exact Nat.le_of_eq (congrArg List.length (hi rfl)).symm

/-! ## Coming to rest -/

/-- The fuel of the refill thread. -/
def State.fuel (s : State) : Nat :=
  (s.refill.map (WarmPool.fuel s.shuttingDown (attempts s.cfg))).getD 0

/-- Only a call that is due is made. -/
theorem due_of_calls (hasClient : Bool) (h : s.calls = true) :
    ¬ AtRest s ∧ s.shuttingDown = false ∧ Due hasClient s := by
  rw [State.calls] at h
  split at h
  · rename_i cur tgt i hr
    refine ⟨fun hrest => ?_, by simpa using h, _, hr, trivial⟩
    rcases hrest _ hr with hw | hw | hw <;> cases hw
  · cases h

/-- A call of `create` is due before it is made. -/
theorem Settles.calls_eq_false (h : Settles hasClient acq s) : s.calls = false := by
  refine Bool.eq_false_iff.2 fun hc => ?_
  obtain ⟨hnr, hnf, hdue⟩ := due_of_calls hasClient hc
  rcases h with hrest | hf | ⟨hnd, -⟩
  · exact hnr hrest
  · exact absurd (hnf.symm.trans hf) nofun
  · exact hnd hdue

theorem AtRest.after (h : AtRest s) (hw : s.refill = some w)
    (ha : after hasClient s w = some w') : AtRest { s with refill := some w' } := by
  rintro x ⟨⟩
  rcases h w hw with rfl | rfl | rfl
  · cases ha
  · cases ha
    exact .inl rfl
  · cases ha

/-- A thread that settles has one step less to take. -/
theorem Settles.fuel_lt (h : Settles hasClient false s) (hw : s.refill = some w)
    (ha : WarmPool.after hasClient s w = some w') :
    { s with refill := some w' }.fuel < s.fuel := by
  have hstep : w = .holding ∨ s.shuttingDown = true ∨ s.target ≤ s.idle.length := by
    rcases h with hrest | hf | ⟨-, hle⟩
    · rcases hrest w hw with rfl | rfl | rfl
      · cases ha
      · exact .inl rfl
      · cases ha
    · exact .inr (.inl hf)
    · exact .inr (.inr hle)
  rw [State.fuel, State.fuel, hw]
  exact after_fuel ha hstep

/-- A thread that settles comes to rest, without another call of `create`. -/
theorem Outage.settles (hu : s.undefined = false) (hset : Settles hasClient acq s)
    (h : Outage hasClient acq s n k s') :
    n + s'.fuel ≤ s.fuel ∧ k = 0 ∧
      (AtRest s' ∨ s.shuttingDown = true ∨ ¬ Due hasClient s' ∧ s.target ≤ kept acq s) := by
  induction h with
  | nil => exact ⟨by omega, rfl, hset⟩
  | acquire _ _ hs ih =>
    obtain ⟨acquires, rfl⟩ := step_acquire hs
    exact ih
  | take _ _ hs ih =>
    obtain ⟨acquires, idle, rfl⟩ := step_take hs
    exact ih
  | fallback _ _ hs ih =>
    obtain ⟨acquires, rfl⟩ := step_fallback hs
    exact ih
  | @refill n k r t t' h hr hs ih =>
    obtain ⟨hn, rfl, hcalm⟩ := ih
    have hle := h.kept_le hu
    obtain ⟨acquires, idle, refill, rfl, -⟩ := h.eq hu
    obtain ⟨w, w', hw, ha, rfl⟩ :=
      (step_refill (s := { s with acquires, idle, refill }) hu hr).1 hs
    obtain rfl : refill = some w := hw
    have hsettles : Settles hasClient false { s with acquires, idle, refill := some w } :=
      hcalm.imp_right (Or.imp_right (And.imp_right fun hle' => Nat.le_trans hle' hle))
    refine ⟨?_, ?_, ?_⟩
    · have hfuel := hsettles.fuel_lt rfl ha
      simp only at hn hfuel ⊢
      omega
    · rw [hsettles.calls_eq_false]
      rfl
    · rcases hcalm with hrest | hf | ⟨hnd, hle'⟩
      · exact .inl (hrest.after rfl ha)
      · exact .inr (.inl hf)
      · cases hf : s.shuttingDown with
        | true => exact .inr (.inl rfl)
        | false =>
          refine .inr (.inr ⟨?_, hle'⟩)
          rintro ⟨pc', hpc, hd⟩
          cases hpc
          rcases due_of_after ha hd (Nat.le_trans hle' hle) with hf' | ⟨pc, rfl, hdue⟩
          · exact absurd (hf.symm.trans hf') nofun
          · exact hnd ⟨pc, rfl, hdue⟩

/-! ## Going on for ever -/

/-- The thread is neither in the wait nor gone. -/
def Live (w : Refill) : Prop := ∃ pc, w = .awake pc ∧ pc ≠ .exited

theorem live_of_not_atRest (h : ¬ AtRest s) : ∃ w, s.refill = some w ∧ Live w := by
  cases hr : s.refill with
  | none => exact absurd (fun w hw => by rw [hr] at hw; cases hw) h
  | some w =>
    refine ⟨w, rfl, ?_⟩
    by_contra hl
    refine h fun v hv => ?_
    rw [hr] at hv
    cases hv
    cases w with
    | blocked => exact .inl rfl
    | holding => exact .inr (.inl rfl)
    | awake pc =>
      by_contra hne
      exact hl ⟨pc, rfl, fun he => hne (.inr (.inr (congrArg Waiter.awake he)))⟩

/-- With a container missing the thread never comes to rest. -/
theorem after_live (hf : s.shuttingDown = false) (hlt : s.idle.length < s.target) (hw : Live w) :
    ∃ w', after hasClient s w = some w' ∧ Live w' := by
  obtain ⟨pc, rfl, hne⟩ := hw
  cases pc with
  | exited => exact absurd rfl hne
  | sizing => exact ⟨_, rfl, .woken, by rw [if_pos hlt], nofun⟩
  | _ => exact ⟨_, rfl, _, rfl, by grind⟩

theorem spins (hu : s.undefined = false) (h : Outage hasClient acq s n k t)
    (hf : t.shuttingDown = false) (hlt : t.idle.length < t.target)
    (hw : ∃ w, t.refill = some w ∧ Live w) (m : Nat) :
    ∃ k' w', Outage hasClient acq s (n + m) k' { t with refill := some w' } ∧ Live w' := by
  have hut : t.undefined = false := by
    obtain ⟨_, _, _, rfl, -⟩ := h.eq hu
    exact hu
  induction m with
  | zero =>
    obtain ⟨w, hw, hl⟩ := hw
    refine ⟨k, w, ?_, hl⟩
    rw [← hw]
    exact h
  | succ m ih =>
    obtain ⟨k', w, ho, hl⟩ := ih
    obtain ⟨w', ha, hl'⟩ := after_live (s := { t with refill := some w }) hf hlt hl
    refine ⟨_, w', .refill (r := none) ho rfl ?_, hl'⟩
    exact (step_refill (s := { t with refill := some w }) hut rfl).2 ⟨w, w', rfl, ha, rfl⟩

/-- The calls of `acquire` take container after container out of the pool. -/
theorem drains (hasClient : Bool) (hu : s.undefined = false) (hr : s.running = true) (m : Nat)
    (hm : m ≤ s.idle.length) :
    ∃ acquires, Outage hasClient true s 0 0 { s with acquires, idle := s.idle.drop m } := by
  induction m with
  | zero => exact ⟨s.acquires, .nil⟩
  | succ m ih =>
    obtain ⟨acquires, ho⟩ := ih (Nat.le_of_succ_le hm)
    have hdrop : s.idle.drop m = s.idle[m] :: s.idle.drop (m + 1) :=
      List.drop_eq_getElem_cons hm
    have hget : (acquires ++ [Acquire.checked])[acquires.length]? = some .checked :=
      List.getElem?_concat_length
    have hacq : step hasClient { s with acquires, idle := s.idle.drop m } .acquire =
        some { s with acquires := acquires ++ [.checked], idle := s.idle.drop m } := by
      simp only [step, hu, acquire, hr, if_true, if_false, Bool.false_eq_true]
    have htake : step hasClient
        { s with acquires := acquires ++ [.checked], idle := s.idle.drop m }
        (.take acquires.length) = some { s with
          acquires := (acquires ++ [Acquire.checked]).set acquires.length
            (.returned (some ⟨s.idle[m], true⟩))
          idle := s.idle.drop (m + 1) } := by
      simp only [step, hu, take, hget, hdrop, if_false, Bool.false_eq_true]
    exact ⟨_, .take (.acquire ho rfl hacq) rfl htake⟩

/-! ## The pool is open while a refill thread is there -/

/-- A refill thread that was not told to leave finds the pool running. -/
structure Started (s : State) : Prop where
  flagged : s.control = .notifying ∨ s.control = .joining ∨ s.control = .draining ∨
    s.control = .stopping → s.shuttingDown = true
  spawning : ∀ created, s.control = .spawning created → s.running = true
  running : s.refill ≠ none → s.shuttingDown = false → s.running = true

theorem refillLoop_frame (h : refillLoop hasClient s r = some s') :
    s.refill ≠ none ∧ s'.control = s.control ∧ s'.shuttingDown = s.shuttingDown ∧
      s'.running = s.running := by
  rw [refillLoop] at h
  split at h
  · cases h
  · cases h
  · cases h
    simp_all
  · rename_i pc hw
    refine ⟨by simp [hw], ?_⟩
    cases pc with
    | sizing =>
      simp only at h
      split_ifs at h <;> cases h <;> exact ⟨rfl, rfl, rfl⟩
    | creating cur tgt i =>
      simp only at h
      split at h <;> cases h <;> exact ⟨rfl, rfl, rfl⟩
    | exited => cases h
    | _ =>
      cases h
      exact ⟨rfl, rfl, rfl⟩

theorem Started.next (h : Started s) (hs : next s r = some s') : Started s' := by
  obtain ⟨hfl, hsp, hru⟩ := h
  rw [WarmPool.next] at hs
  cases hc : s.control with
  | idle => simp [hc] at hs
  | precreating i created =>
    simp only [hc] at hs
    split at hs
    · split at hs <;> cases hs <;> exact ⟨by simp, by simp, hru⟩
    · cases hs
      refine ⟨by simp only; split <;> simp, fun c hcc => ?_, hru⟩
      simp only at hcc
      split at hcc <;> cases hcc
  | starting created =>
    simp only [hc, Option.some.injEq] at hs
    subst hs
    exact ⟨by simp, fun _ _ => rfl, fun _ _ => rfl⟩
  | spawning created =>
    have hrun := hsp created hc
    simp only [hc] at hs
    split at hs
    · cases hs
      exact ⟨by simp, fun _ _ => hrun, fun _ _ => hrun⟩
    · cases hs
      exact ⟨by simp only; split <;> simp, fun _ _ => hrun, fun _ _ => hrun⟩
  | nudging =>
    simp only [hc, Option.some.injEq] at hs
    subst hs
    exact ⟨by simp, by simp, fun hn => hru (by simpa [State.notifyAll] using hn)⟩
  | flagging =>
    simp only [hc, Option.some.injEq] at hs
    subst hs
    exact ⟨fun _ => rfl, by simp, nofun⟩
  | notifying =>
    -- From here on the flag is up, so no thread has to be running.
    have hf := hfl (.inl hc)
    simp only [hc, Option.some.injEq] at hs
    subst hs
    exact ⟨fun _ => hf, by simp, fun _ hn => absurd (hf.symm.trans hn) nofun⟩
  | joining =>
    have hf := hfl (.inr (.inl hc))
    simp only [hc] at hs
    split at hs <;> cases hs <;>
      exact ⟨fun _ => hf, by simp, fun _ hn => absurd (hf.symm.trans hn) nofun⟩
  | draining =>
    have hf := hfl (.inr (.inr (.inl hc)))
    simp only [hc, Option.some.injEq] at hs
    subst hs
    exact ⟨fun _ => hf, by simp, fun _ hn => absurd (hf.symm.trans hn) nofun⟩
  | stopping =>
    have hf := hfl (.inr (.inr (.inr hc)))
    simp only [hc, Option.some.injEq] at hs
    subst hs
    exact ⟨by simp, by simp, fun _ hn => absurd (hf.symm.trans hn) nofun⟩

theorem Started.enter {pc : Control} (h : Started s) (hp : pc = .flagging ∨ pc = .precreating 0 0) :
    Started (enter s pc) := by
  rw [WarmPool.enter]
  split_ifs
  · rcases hp with rfl | rfl <;> exact ⟨by simp, by simp, h.running⟩
  · exact ⟨h.flagged, h.spawning, h.running⟩

theorem Started.step {a : Action} (h : Started s) (hs : WarmPool.step hasClient s a = some s') :
    Started s' := by
  -- What leaves the three fields as they are and starts no thread keeps it.
  have hkeep : ∀ {t : State}, t.control = s.control → t.shuttingDown = s.shuttingDown →
      t.running = s.running → (t.refill ≠ none → s.refill ≠ none) → Started t := by
    intro t hc hf hr hn
    refine ⟨?_, ?_, ?_⟩
    · rw [hc, hf]
      exact h.flagged
    · rw [hc, hr]
      exact h.spawning
    · rw [hf, hr]
      exact fun ht => h.running (hn ht)
  cases a with
  | acquire =>
    obtain ⟨_, rfl⟩ := step_acquire hs
    exact hkeep rfl rfl rfl id
  | take p =>
    obtain ⟨_, _, rfl⟩ := step_take hs
    exact hkeep rfl rfl rfl id
  | fallback p r =>
    obtain ⟨_, rfl⟩ := step_fallback hs
    exact hkeep rfl rfl rfl id
  | release =>
    simp only [WarmPool.step] at hs
    split_ifs at hs
    cases hs
    rw [release]
    split_ifs <;> exact hkeep rfl rfl rfl id
  | nudge =>
    simp only [WarmPool.step, nudge] at hs
    split_ifs at hs
    cases hs
    exact hkeep rfl rfl rfl (by simp [State.notifyAll])
  | refill r =>
    simp only [WarmPool.step] at hs
    split_ifs at hs
    obtain ⟨hn, hc, hf, hr⟩ := refillLoop_frame hs
    exact hkeep hc hf hr fun _ => hn
  | start cfg =>
    simp only [WarmPool.step] at hs
    split_ifs at hs
    cases hs
    simp only [start]
    split_ifs
    · exact h
    · exact ⟨h.flagged, fun _ _ => rfl, fun _ _ => rfl⟩
    · exact Started.enter (hkeep rfl rfl rfl id) (.inr rfl)
    · exact hkeep rfl rfl rfl id
  | shutdown =>
    simp only [WarmPool.step] at hs
    split_ifs at hs
    cases hs
    exact h.enter (.inl rfl)
  | next r =>
    simp only [WarmPool.step] at hs
    split_ifs at hs
    exact h.next hs
  | spawnFails =>
    simp only [WarmPool.step, spawnFails] at hs
    split_ifs at hs
    split at hs
    · cases hs
      exact ⟨by simp, by simp, h.running⟩
    · cases hs

theorem Started.of_reach (h : (system hasClient).Reach System.Always s) : Started s := by
  refine h.invariant (fun s hs => ?_) fun t a t' ht _ hs => ht.step hs
  subst hs
  exact ⟨by simp [State.new], by simp [State.new], by simp [State.new]⟩

/-! ## The exact condition -/

/-- A call that is due for a container in hand is made. -/
theorem calls_of_due (acq : Bool) (hu : s.undefined = false) (hf : s.shuttingDown = false)
    (hd : Due hasClient s) : ∃ n s', Outage hasClient acq s n 1 s' ∧ s'.idle = s.idle ∧
      s'.target = s.target := by
  obtain ⟨pc, hpc, hd⟩ := hd
  -- the step at `attempt` is the call
  have hcall : ∀ n w cur tgt i, Outage hasClient acq s n 0 { s with refill := some w } →
      w = .awake (.attempt cur tgt i) → ∃ n s', Outage hasClient acq s n 1 s' ∧
        s'.idle = s.idle ∧ s'.target = s.target := by
    rintro n w cur tgt i ho rfl
    have ha : after hasClient { s with refill := some (.awake (.attempt cur tgt i)) }
        (.awake (.attempt cur tgt i)) = some (.awake (.creating cur tgt i)) := by
      simp [after, hf]
    have hs := (step_refill (s := { s with refill := some (.awake (.attempt cur tgt i)) }) hu
      (r := none) rfl).2 ⟨_, _, rfl, ha, rfl⟩
    have hcalls : ({ s with refill := some (.awake (.attempt cur tgt i)) } : State).calls =
        true := by
      simp [State.calls, hf]
    have ho' := Outage.refill ho (r := none) rfl hs
    rw [hcalls, if_pos rfl] at ho'
    exact ⟨_, _, ho', rfl, rfl⟩
  have hself : ({ s with refill := some (.awake pc) } : State) = s := by rw [← hpc]
  -- one step to `attempt`, from the other two points
  have hone : ∀ w, after hasClient s (.awake pc) = some w → s.calls = false →
      Outage hasClient acq s 1 0 { s with refill := some w } := by
    intro w ha hc
    have hnil : Outage hasClient acq s 0 0 s := .nil
    have ho := hnil.refill (r := none) rfl ((step_refill hu rfl).2 ⟨_, w, hpc, ha, rfl⟩)
    rwa [hc, if_neg nofun] at ho
  cases pc with
  | below cur tgt =>
    refine hcall 1 _ cur tgt 0 (hone _ ?_ (by simp [State.calls, hpc])) rfl
    simp [after, hf, show hasClient = true from hd]
  | attempt cur tgt i =>
    refine hcall 0 _ cur tgt i ?_ rfl
    rw [hself]
    exact .nil
  | creating cur tgt i =>
    refine hcall 1 _ cur tgt (i + 1) (hone _ ?_ (by simp [State.calls, hpc])) rfl
    simp [after, show i + 1 < attempts s.cfg from hd]
  | _ => exact hd.elim

/-- From any reachable state, with or without `acquire` calls, and for every target and number of
    attempts: the refill thread comes to rest with at most `attempts` calls of `create` for each
    missing container, exactly if it settles. -/
theorem boundedRefill_iff (hasClient acq : Bool) (s : State)
    (h : (system hasClient).Reach System.Always s) (hu : s.undefined = false) :
    BoundedRefill hasClient acq s ↔ Settles hasClient acq s := by
  constructor
  · rintro ⟨N, hN⟩
    by_contra hset
    obtain ⟨hrest, hset⟩ := not_or.1 hset
    obtain ⟨hflag, hset⟩ := not_or.1 hset
    rw [Bool.not_eq_true] at hflag
    obtain ⟨w, hw, hl⟩ := live_of_not_atRest hrest
    by_cases hlt : kept acq s < s.target
    · -- a container is missing, if need be after some calls of `acquire`
      obtain ⟨t, ho, hidle, hsame⟩ : ∃ t, Outage hasClient acq s 0 0 t ∧
          t.idle.length < t.target ∧ t.shuttingDown = false ∧ t.refill = s.refill := by
        cases acq with
        | false => exact ⟨s, .nil, hlt, hflag, rfl⟩
        | true =>
          have hrun := (Started.of_reach h).running (by simp [hw]) hflag
          obtain ⟨acquires, ho⟩ := drains hasClient hu hrun _ (Nat.le_refl _)
          exact ⟨_, ho, by simpa [kept] using hlt, hflag, rfl⟩
      obtain ⟨k, w', hspin, -⟩ := spins hu ho hsame.1 hidle ⟨w, hsame.2.trans hw, hl⟩ (N + 1)
      have := (hN _ _ _ hspin).1
      omega
    · -- nothing is missing, but a call is made for the container in hand
      have hdue : Due hasClient s := by
        by_contra hnd
        exact hset ⟨hnd, Nat.le_of_not_lt hlt⟩
      obtain ⟨n, s', ho, hidle, htarget⟩ := calls_of_due acq hu hflag hdue
      have hk := (hN _ _ _ ho).2
      have hle := ho.kept_le hu
      rw [htarget, show s.target - s'.idle.length = 0 by omega, Nat.mul_zero] at hk
      omega
  · intro hset
    refine ⟨s.fuel, fun n k s' ho => ?_⟩
    obtain ⟨hn, rfl, -⟩ := ho.settles hu hset
    exact ⟨by omega, Nat.zero_le _⟩

/-- A pool with one container, just started. -/
def startOne : List Action := .start ⟨1, 2⟩ :: List.replicate 4 (.next (some (bytes "c1")))

/-- The refill thread of a full pool comes to rest. -/
theorem boundedRefill_full :
    ∃ s, (system true).Reach System.Always s ∧ s.refill = some (.awake .head) ∧
      s.idle.length = s.target ∧ BoundedRefill true false s := by
  obtain ⟨s, hexec, hs⟩ := System.exists_exec_of_run (S := system true) (s := .new) (l := startOne)
    (p := fun s => decide (s.refill = some (.awake .head)) && decide (s.idle.length = s.target) &&
      decide (s.undefined = false)) (by decide +kernel)
  simp only [Bool.and_eq_true, decide_eq_true_eq] at hs
  obtain ⟨⟨hr, hlen⟩, hu⟩ := hs
  have h : (system true).Reach System.Always s := ⟨_, _, rfl, hexec⟩
  refine ⟨s, h, hr, hlen, (boundedRefill_iff true false s h hu).2 (.inr (.inr ⟨?_, ?_⟩))⟩
  · rintro ⟨pc, hpc, hd⟩
    rw [hr] at hpc
    cases hpc
    exact hd
  · exact Nat.le_of_eq hlen.symm

/-- The only container is acquired, and nothing else happens: the refill thread never comes to
    rest. -/
theorem refill_spins :
    ∃ s, (system true).Reach System.Always s ∧ s.control = .idle ∧ s.releasing = 0 ∧
      s.target = 1 ∧ attempts s.cfg = 3 ∧ ¬ BoundedRefill true false s := by
  obtain ⟨s, hexec, hs⟩ := System.exists_exec_of_run (S := system true) (s := .new)
    (l := startOne ++ [.acquire, .take 0])
    (p := fun s => decide (s.refill = some (.awake .head)) && decide (s.idle = []) &&
      decide (s.undefined = false) && decide (s.shuttingDown = false) &&
      decide (s.control = .idle) && decide (s.releasing = 0) && decide (s.target = 1) &&
      decide (attempts s.cfg = 3)) (by decide +kernel)
  simp only [Bool.and_eq_true, decide_eq_true_eq] at hs
  obtain ⟨⟨⟨⟨⟨⟨⟨hr, hi⟩, hu⟩, hf⟩, hc⟩, hrel⟩, ht⟩, ha⟩ := hs
  refine ⟨s, ⟨_, _, rfl, hexec⟩, hc, hrel, ht, ha, ?_⟩
  rintro ⟨N, hN⟩
  have hlt : s.idle.length < s.target := by simp [hi, ht]
  obtain ⟨k, w, hspin, -⟩ := spins hu .nil hf hlt ⟨_, hr, .head, rfl, nofun⟩ (N + 1)
  have := (hN _ _ _ hspin).1
  omega

end LiteCode.WarmPool
