import Mathlib.Algebra.Order.Field.Basic
import Mathlib.Algebra.Order.Ring.Rat
import Mathlib.Tactic.Linarith
import Mathlib.Tactic.NormNum
import LiteCode.Judge.Loop

/-!
# The time limit of a case

`judge.sh` runs a program under `timeout --kill-after=2s`, with the limit in whole seconds plus one
as its duration. The CPU time of the container since then is recorded and compared with nothing: the
limit is one of wall clock time, and the script takes the status 137 of a killed program for an
exceeded memory limit, whoever killed it.

* `runTimeout`: how the call of `timeout` ends;
* `judgeCase_timed`: an accepted run has ended by itself within that duration, its recorded time is
  the CPU time of the container, a run that TERM ended is judged `tle`, and one that had to be
  killed `mle`;
* `judgeCase_over`: an accepted run that took more CPU time than the limit, and a run that
  `timeout` had to kill.
-/

namespace LiteCode.Judge

/-! ## Running a program under a duration -/

/-- A program: after how many seconds it ends by itself and with which status, if it does, and how
    long it goes on after TERM, `none` if for ever. -/
structure Program where
  ends : Option (ℚ × Nat)
  survives : Option ℚ
  deriving DecidableEq

/-- How the call of `timeout` ends: with the program, after its time, or by a signal. `timeout`
    fails by itself if its duration is no number of seconds. -/
inductive Ending
  | self (wall : ℚ) (rc : Nat)
  | term
  | kill
  | invalid
  deriving DecidableEq

/-- The exit status of `timeout`. -/
def Ending.rc : Ending → Nat
  | .self _ rc => rc
  | .term => 124
  | .kill => 137
  | .invalid => 125

/-- A program that gets TERM, and KILL after two seconds. -/
def Program.signalled (p : Program) : Ending :=
  match p.survives with
  | some d => if d ≤ 2 then .term else .kill
  | none => .kill

/-- `timeout --kill-after=2s seconds`: a duration of zero is none; `none` if the program runs for
    ever. -/
def runTimeout (seconds : Int) (p : Program) : Option Ending :=
  if seconds < 0 then some .invalid
  else match p.ends with
    | some (t, rc) => some (if seconds = 0 ∨ t ≤ seconds then .self t rc else p.signalled)
    | none => if seconds = 0 then none else some p.signalled

/-- `TIME_LIMIT_S`. -/
def Setup.timeLimitS (σ : Setup) : Int := (σ.timeLimitMs + 999).tdiv 1000

/-- The call of `timeout` in the loop ends so, and its status is that of the run. -/
structure Timed (σ : Setup) (p : Program) (e : Ending) (r : CaseRun) : Prop where
  ending : runTimeout (σ.timeLimitS + 1) p = some e
  rc : r.rc = e.rc

/-- Between the readings of the counter of the container, the program has used `used` µs on `cores`
    processors in the wall clock time `t` (s), and everything else that runs in the container, the
    script itself too, `rest` µs. -/
structure CpuShare (cores : Nat) (t : ℚ) (used rest : Nat) (r : CaseRun) : Prop where
  share : (used : ℚ) ≤ cores * t * 1000000
  counter : r.cpuAfter ≤ r.cpuBefore + used + rest

/-- What the script makes of a run that has ended in some way. -/
structure TimeJudged (σ : Setup) (tc : TestCase) (i : Nat) (e : Ending) (r : CaseRun) : Prop where
  /-- An accepted run has ended by itself with the status zero, within the limit rounded up to
      seconds plus one, if that is not zero. -/
  accepted : ∀ o, judgeCase σ tc r = .ok o → (o.line i r).status = .ac →
    ∃ t, e = .self t 0 ∧ (σ.timeLimitS + 1 = 0 ∨ t ≤ σ.timeLimitS + 1)
  /-- Its recorded time is what the counter has grown by, in milliseconds rounded up. -/
  recorded : ∀ o, judgeCase σ tc r = .ok o → (o.line i r).status = .ac →
    (o.line i r).timeMs = elapsedSinceMs r.cpuBefore r.cpuAfter
  /-- So the program has at most that duration on every processor in it. -/
  measured : ∀ o, judgeCase σ tc r = .ok o → (o.line i r).status = .ac → σ.timeLimitS + 1 ≠ 0 →
    ∀ t cores used rest, e = .self t 0 → CpuShare cores t used rest r →
      ((o.line i r).timeMs : Int) ≤
        cores * (σ.timeLimitS + 1) * 1000 + ((rest + 999) / 1000 : Nat)
  term : e = .term → (r.out.length : Int) ≤ σ.outputLimitBytes →
    ∃ o, judgeCase σ tc r = .ok o ∧ (o.line i r).status = .tle
  kill : e = .kill → (r.out.length : Int) ≤ σ.outputLimitBytes →
    ∃ o, judgeCase σ tc r = .ok o ∧ (o.line i r).status = .mle

variable {σ : Setup} {tc : TestCase} {r : CaseRun} {p : Program} {e : Ending} {t : ℚ}

/-- A program that ends by itself does so within the duration, if there is one. -/
theorem wall_le_of_runTimeout {seconds : Int} {rc : Nat}
    (h : runTimeout seconds p = some (.self t rc)) : seconds = 0 ∨ t ≤ seconds := by
  have hsig : p.signalled ≠ .self t rc := by
    unfold Program.signalled
    split
    · split_ifs <;> simp
    · simp
  have hneg : ¬seconds < 0 := fun hn => by
    rw [runTimeout, if_pos hn] at h
    cases h
  rw [runTimeout, if_neg hneg] at h
  cases he : p.ends with
  | some x =>
    simp only [he, Option.some.injEq] at h
    split_ifs at h with hw
    · cases h
      exact hw
    · exact absurd h hsig
  | none =>
    simp only [he] at h
    split_ifs at h
    exact absurd (Option.some.inj h) hsig

/-- The CPU time in whole milliseconds, rounded up. -/
theorem elapsedSinceMs_le {a b n rest : Nat} (h : b ≤ a + n * 1000 + rest) :
    elapsedSinceMs a b ≤ n + (rest + 999) / 1000 := by
  rw [elapsedSinceMs]
  split_ifs with hab
  · exact Nat.zero_le _
  · omega

/-! ## The verdict -/

/-- An accepted case comes from a run with the status zero. -/
theorem rc_of_judgeCase_ac {o : CaseOutcome} (h : judgeCase σ tc r = .ok o)
    (hac : o.status = .ac) : r.rc = 0 := by
  have hj := judgeCase_judged σ tc r
  rw [h] at hj
  cases hj with
  | accepts o hp _ _ =>
    rw [passes, Bool.and_eq_true, runsNormally, Bool.and_eq_true, beq_iff_eq] at hp
    exact hp.1.2
  | fails o _ _ hne _ => exact absurd hac hne

/-- The status of TERM is judged `tle`. -/
theorem judgeCase_rc124 (hrc : r.rc = 124) (hout : (r.out.length : Int) ≤ σ.outputLimitBytes) :
    ∃ o, judgeCase σ tc r = .ok o ∧ o.status = .tle := by
  rw [judgeCase, if_neg (not_lt.2 hout), hrc]
  exact ⟨_, rfl, rfl⟩

/-- That of KILL is judged `mle`. -/
theorem judgeCase_rc137 (hrc : r.rc = 137) (hout : (r.out.length : Int) ≤ σ.outputLimitBytes) :
    ∃ o, judgeCase σ tc r = .ok o ∧ o.status = .mle := by
  rw [judgeCase, if_neg (not_lt.2 hout), hrc]
  exact ⟨_, rfl, rfl⟩

/-- A program that was run had a duration. -/
theorem timeLimitS_nonneg {rc : Nat} (h : runTimeout (σ.timeLimitS + 1) p = some (.self t rc)) :
    0 ≤ σ.timeLimitS + 1 := by
  by_contra hneg
  rw [runTimeout, if_pos (not_le.1 hneg)] at h
  cases h

/-- An accepted run has ended by itself with the status zero. -/
theorem Timed.ending_of_ac (ht : Timed σ p e r) {o : CaseOutcome} (ho : judgeCase σ tc r = .ok o)
    (hac : o.status = .ac) : ∃ t, e = .self t 0 := by
  have hrc : e.rc = 0 := ht.rc.symm.trans (rc_of_judgeCase_ac ho hac)
  cases e with
  | self t rc => exact ⟨t, congrArg (Ending.self t) hrc⟩
  | term => cases hrc
  | kill => cases hrc
  | invalid => cases hrc

/-- The program uses no more CPU time than its duration on every processor. -/
theorem timeMs_le_of_share {cores used rest : Nat} (hT : 0 ≤ σ.timeLimitS + 1)
    (ht : t ≤ σ.timeLimitS + 1) (hcpu : CpuShare cores t used rest r) :
    (r.timeMs : Int) ≤ cores * (σ.timeLimitS + 1) * 1000 + ((rest + 999) / 1000 : Nat) := by
  obtain ⟨s, hs⟩ := Int.eq_ofNat_of_zero_le hT
  have hs' : (σ.timeLimitS : ℚ) + 1 = s := by exact_mod_cast congrArg (Int.cast (R := ℚ)) hs
  have hmul : (cores : ℚ) * t ≤ cores * s :=
    mul_le_mul_of_nonneg_left (hs' ▸ ht) (Nat.cast_nonneg cores)
  have hused : used ≤ cores * s * 1000 * 1000 := by
    have hle : (used : ℚ) ≤ ((cores * s * 1000 * 1000 : Nat) : ℚ) := by
      push_cast
      linarith [hcpu.share]
    exact_mod_cast hle
  have hms : r.timeMs ≤ cores * s * 1000 + (rest + 999) / 1000 := by
    refine elapsedSinceMs_le ?_
    have := hcpu.counter
    omega
  rw [hs]
  exact_mod_cast hms

/-- Every run under `timeout` is judged so. -/
theorem judgeCase_timed (ht : Timed σ p e r) (i : Nat) : TimeJudged σ tc i e r where
  accepted o ho hac := by
    obtain ⟨t, rfl⟩ := ht.ending_of_ac ho hac
    refine ⟨t, rfl, ?_⟩
    exact_mod_cast wall_le_of_runTimeout ht.ending
  recorded o _ _ := rfl
  measured o ho hac hdur t cores used rest he hcpu := by
    subst he
    have hwall := (wall_le_of_runTimeout ht.ending).resolve_left hdur
    push_cast at hwall
    exact timeMs_le_of_share (timeLimitS_nonneg ht.ending) hwall hcpu
  term he hout := judgeCase_rc124 (ht.rc.trans (congrArg Ending.rc he)) hout
  kill he hout := judgeCase_rc137 (ht.rc.trans (congrArg Ending.rc he)) hout

/-! ## Two runs -/

/-- A case with the limit of one second. -/
def timedCase : TestCase := ⟨[], [], bytes "exact", none, 0⟩

def timedSetup : Setup := ⟨1000, 30000, 1024, .absent, 0⟩

/-- A run with no output that takes the CPU time `ms`. -/
def timedRun (rc ms : Nat) : CaseRun := ⟨0, rc, [], [], 0, ms * 1000, 0, true, .unreadable []⟩

/-- A program that ends after 0.4 s, with the same CPU time. -/
theorem judgeCase_timed_second : TimeJudged timedSetup timedCase 0 (.self (2 / 5) 0)
    (timedRun 0 400) ∧ ∃ o, judgeCase timedSetup timedCase (timedRun 0 400) = .ok o ∧
      (o.line 0 (timedRun 0 400)).status = .ac ∧ (o.line 0 (timedRun 0 400)).timeMs = 400 :=
  ⟨judgeCase_timed (p := ⟨some (2 / 5, 0), none⟩) ⟨by decide +kernel, rfl⟩ 0, _, rfl,
    by decide +kernel⟩

/-- A program that takes 1.9 s is accepted with the limit of one second, and one that ignores TERM
    is judged `mle`. -/
theorem judgeCase_over :
    (∃ p t, Timed timedSetup p (.self t 0) (timedRun 0 1900) ∧
      ∃ o, judgeCase timedSetup timedCase (timedRun 0 1900) = .ok o ∧
        (o.line 0 (timedRun 0 1900)).status = .ac ∧
        timedSetup.timeLimitMs < (o.line 0 (timedRun 0 1900)).timeMs) ∧
    (∃ p, Timed timedSetup p .kill (timedRun 137 4000) ∧
      ((timedRun 137 4000).out.length : Int) ≤ timedSetup.outputLimitBytes ∧
      ∃ o, judgeCase timedSetup timedCase (timedRun 137 4000) = .ok o ∧
        (o.line 0 (timedRun 137 4000)).status = .mle) := by
  refine ⟨⟨⟨some (19 / 10, 0), none⟩, 19 / 10, ⟨by decide +kernel, rfl⟩, _, rfl, ?_⟩,
    ⟨⟨none, none⟩, ⟨by decide +kernel, rfl⟩, by decide, _, rfl, rfl⟩⟩
  decide +kernel

end LiteCode.Judge
