import Mathlib.Order.Interval.Set.Basic
import Mathlib.Tactic.SplitIfs
import LiteCode.Lib.Bytes
import LiteCode.Lib.System
import LiteCode.Lib.UnorderedMap

/-!
# Counting failed logins

`LoginFailureTracker` of `src/routes/auth_routes.h`: failed logins are counted per username, in a
window that the first of them opens, and a username with `threshold` failures in its window is
locked for a while. Times are the nanoseconds of the steady clock since its epoch.

The table is bounded. `record_failure` on a full table evicts an element first, also when the
username is in the table already: an unlocked one with the largest count if there is one, a locked
one with the largest count otherwise (`victim_spec`). The evicted username starts from nothing.

* `recordFailure`, `reset`, `isLocked`: as in the source;
* `lookup_recordFailure_ne`: a failure of another username leaves an element alone, unless it
  evicts it;
* `recordFailure_counting`, `recordFailure_locked`: a failure of a username that is counting, or
  locked.
-/

namespace LiteCode.LoginFailureTracker

/-- `LoginLockoutConfig`. -/
structure LoginLockoutConfig where
  enabled : Bool := true
  threshold : Int := 5
  windowSeconds : Int := 900
  lockoutDurationSeconds : Int := 900
  deriving DecidableEq, Repr

/-- The configuration of a tracker: the constructor raises the numbers to at least one. -/
structure Config extends LoginLockoutConfig where
  maxEntries : Nat
  threshold_pos : 1 ≤ threshold
  window_pos : 1 ≤ windowSeconds
  duration_pos : 1 ≤ lockoutDurationSeconds

/-- The constructor of the tracker. -/
def Config.new (cfg : LoginLockoutConfig := {}) (maxEntries : Nat := 100000) : Config where
  enabled := cfg.enabled
  threshold := if cfg.threshold < 1 then 1 else cfg.threshold
  windowSeconds := if cfg.windowSeconds < 1 then 1 else cfg.windowSeconds
  lockoutDurationSeconds := if cfg.lockoutDurationSeconds < 1 then 1 else cfg.lockoutDurationSeconds
  maxEntries := maxEntries
  threshold_pos := by split_ifs <;> omega
  window_pos := by split_ifs <;> omega
  duration_pos := by split_ifs <;> omega

/-- `std::chrono::seconds`, in nanoseconds. -/
def seconds (n : Int) : Int := n * 1000000000

/-- The length of the window, and of a lockout. -/
def Config.window (cfg : Config) : Int := seconds cfg.windowSeconds

def Config.duration (cfg : Config) : Int := seconds cfg.lockoutDurationSeconds

/-- An element of the table; the default time is the epoch of the clock. -/
structure Entry where
  count : Int := 0
  firstFailureAt : Int := 0
  lockedUntil : Int := 0
  deriving DecidableEq, Repr

/-- `failures_`. -/
abbrev Failures := UnorderedMap Bytes Entry

/-- `seconds_until`: rounded up. -/
def secondsUntil (a b : Int) : Int :=
  if a ≤ b then 0
  else
    let secs := (a - b).tdiv 1000000000
    if seconds secs < a - b then secs + 1 else secs

/-- What `record_failure` returns. -/
structure Outcome where
  count : Int := 0
  shouldAudit : Bool := false
  locked : Bool := false
  wasAlreadyLocked : Bool := false
  lockedForSeconds : Int := 0
  remainingSeconds : Int := 0
  deriving DecidableEq, Repr

/-- `kAuditLogEvery`. -/
def auditLogEvery : Int := 5

/-- The loop over the table that looks for a victim: the next element against the victim so
    far. -/
def worse (now : Int) (victim it : Sigma fun _ : Bytes => Entry) : Sigma fun _ : Bytes => Entry :=
  if ¬ now < victim.2.lockedUntil ∧ now < it.2.lockedUntil then victim
  else if now < victim.2.lockedUntil ∧ ¬ now < it.2.lockedUntil then it
  else if victim.2.count < it.2.count then it
  else victim

/-- The element that the loop ends with. -/
def victim (now : Int) :
    List (Sigma fun _ : Bytes => Entry) → Option (Sigma fun _ : Bytes => Entry)
  | [] => none
  | e :: l => some (l.foldl (worse now) e)

/-- The username that a call evicts, if the table is full. -/
def evicted (cfg : Config) (layout : Layout Bytes Entry) (m : Failures) (now : Int) :
    Option Bytes :=
  if 0 < cfg.maxEntries ∧ cfg.maxEntries ≤ UnorderedMap.size m then
    (victim now (layout.order m)).map Sigma.fst
  else none

/-- The table after the cap was enforced. -/
def evict (cfg : Config) (layout : Layout Bytes Entry) (m : Failures) (now : Int) : Failures :=
  match evicted cfg layout m now with
  | some name => m.erase name
  | none => m

/-- The new element of a failure that is counted: a window is opened, or the count goes up. -/
def bump (cfg : Config) (e : Entry) (now : Int) : Entry :=
  if e.firstFailureAt = 0 ∨ cfg.window ≤ now - e.firstFailureAt then ⟨1, now, 0⟩
  else { e with count := e.count + 1 }

/-- The element is to be locked. -/
def trips (cfg : Config) (e : Entry) (now : Int) : Prop :=
  cfg.enabled = true ∧ cfg.threshold ≤ e.count ∧ e.lockedUntil ≤ now

instance (cfg : Config) (e : Entry) (now : Int) : Decidable (trips cfg e now) :=
  inferInstanceAs (Decidable (_ ∧ _ ∧ _))

/-- `record_failure`. -/
def recordFailure (cfg : Config) (layout : Layout Bytes Entry) (m : Failures) (now : Int)
    (username : Bytes) : Outcome × Failures :=
  if username.isEmpty then ({}, m)
  else
    let m := evict cfg layout m now
    let e := (m.lookup username).getD {}
    if cfg.enabled = true ∧ now < e.lockedUntil then
      ({ count := e.count, wasAlreadyLocked := true,
         lockedForSeconds := cfg.lockoutDurationSeconds,
         remainingSeconds := secondsUntil e.lockedUntil now },
       m.insert username e)
    else
      let e := bump cfg e now
      let out : Outcome :=
        { count := e.count, shouldAudit := 0 < e.count && e.count % auditLogEvery == 0 }
      if trips cfg e now then
        ({ out with
           locked := true, lockedForSeconds := cfg.lockoutDurationSeconds,
           remainingSeconds := cfg.lockoutDurationSeconds },
         m.insert username { e with lockedUntil := now + cfg.duration })
      else (out, m.insert username e)

/-- `reset`. -/
def reset (m : Failures) (username : Bytes) : Failures :=
  if username.isEmpty then m else m.erase username

/-- `is_locked`: the answer, and the seconds that remain. -/
def isLocked (m : Failures) (now : Int) (username : Bytes) : Bool × Int :=
  if username.isEmpty then (false, 0)
  else match m.lookup username with
    | none => (false, 0)
    | some e =>
      if now < e.lockedUntil then (true, secondsUntil e.lockedUntil now) else (false, 0)

/-! ## The victim -/

variable {cfg : Config} {layout : Layout Bytes Entry} {m : Failures} {now t : Int}
  {u v : Bytes}

/-- The victim is before every other element: unlocked elements come first, then those with the
    larger counts. -/
def Outranks (now : Int) (a b : Entry) : Prop :=
  (¬ now < a.lockedUntil ∧ now < b.lockedUntil) ∨
    ((now < a.lockedUntil ↔ now < b.lockedUntil) ∧ b.count ≤ a.count)

theorem Outranks.rfl {a : Entry} : Outranks now a a := .inr ⟨.rfl, le_refl _⟩

/-- The order of the eviction is transitive. -/
theorem Outranks.trans {a b c : Entry} (hab : Outranks now a b) (hbc : Outranks now b c) :
    Outranks now a c := by
  rcases hab with ⟨ha, hb⟩ | ⟨hl, hn⟩
  · rcases hbc with ⟨hb', -⟩ | ⟨hl', -⟩
    · exact absurd hb hb'
    · exact .inl ⟨ha, hl'.1 hb⟩
  · rcases hbc with ⟨hb', hc⟩ | ⟨hl', hn'⟩
    · exact .inl ⟨fun h => hb' (hl.1 h), hc⟩
    · exact .inr ⟨hl.trans hl', hn'.trans hn⟩

/-- One turn of the loop keeps the better of the two. -/
theorem worse_spec (now : Int) (a b : Sigma fun _ : Bytes => Entry) :
    (worse now a b = a ∨ worse now a b = b) ∧
      Outranks now (worse now a b).2 a.2 ∧ Outranks now (worse now a b).2 b.2 := by
  unfold worse
  split_ifs with h₁ h₂ h₃
  · exact ⟨.inl rfl, .rfl, .inl h₁⟩
  · exact ⟨.inr rfl, .inl ⟨h₂.2, h₂.1⟩, .rfl⟩
  · have hl : now < b.2.lockedUntil ↔ now < a.2.lockedUntil := by tauto
    exact ⟨.inr rfl, .inr ⟨hl, h₃.le⟩, .rfl⟩
  · have hl : now < a.2.lockedUntil ↔ now < b.2.lockedUntil := by tauto
    exact ⟨.inl rfl, .rfl, .inr ⟨hl, not_lt.1 h₃⟩⟩

/-- The fold finds an entry that outranks the others. -/
theorem foldl_worse_spec (now : Int) (l : List (Sigma fun _ : Bytes => Entry))
    (e : Sigma fun _ : Bytes => Entry) :
    l.foldl (worse now) e ∈ e :: l ∧ ∀ b ∈ e :: l, Outranks now (l.foldl (worse now) e).2 b.2 := by
  induction l generalizing e with
  | nil => simpa using Outranks.rfl
  | cons a l ih =>
    obtain ⟨hmem, hall⟩ := ih (worse now e a)
    obtain ⟨hor, he, ha⟩ := worse_spec now e a
    have hw := hall _ List.mem_cons_self
    refine ⟨?_, fun b hb => ?_⟩
    · rcases List.mem_cons.1 hmem with h | h
      · rw [List.foldl_cons, h]
        rcases hor with h' | h' <;> simp [h']
      · exact List.mem_cons_of_mem _ (List.mem_cons_of_mem _ h)
    · rcases List.mem_cons.1 hb with rfl | hb
      · exact hw.trans he
      · rcases List.mem_cons.1 hb with rfl | hb
        · exact hw.trans ha
        · exact hall b (List.mem_cons_of_mem _ hb)

/-- A call evicts only if the table is full, and then an element that outranks every other one:
    an unlocked one if there is one, with the largest count. -/
theorem victim_spec (h : evicted cfg layout m now = some u) :
    0 < cfg.maxEntries ∧ cfg.maxEntries ≤ UnorderedMap.size m ∧
      ∃ e, m.lookup u = some e ∧ ∀ w e', m.lookup w = some e' → Outranks now e e' := by
  unfold evicted at h
  split_ifs at h with hfull
  refine ⟨hfull.1, hfull.2, ?_⟩
  have hperm := layout.perm m
  cases hl : layout.order m with
  | nil => simp [hl, victim] at h
  | cons e l =>
    rw [hl, victim, Option.map_some, Option.some_inj] at h
    obtain ⟨hmem, hall⟩ := foldl_worse_spec now l e
    rw [hl] at hperm
    refine ⟨(l.foldl (worse now) e).2, ?_, fun w e' hw => ?_⟩
    · subst h
      exact AList.mem_lookup_iff.2 (hperm.mem_iff.1 hmem)
    · exact hall ⟨w, e'⟩ (hperm.mem_iff.2 (AList.mem_lookup_iff.1 hw))

/-! ## What a call does to an element -/

/-- What is not evicted stays. -/
theorem lookup_evict (h : evicted cfg layout m now ≠ some u) :
    (evict cfg layout m now).lookup u = m.lookup u := by
  unfold evict
  split
  · next name hn => exact AList.lookup_erase_ne fun hu => h (hu ▸ hn)
  · rfl

/-- The call for a username ends with an element for it, and the others as they were. -/
theorem exists_recordFailure (cfg : Config) (layout : Layout Bytes Entry) (m : Failures) (now : Int)
    (hv : v ≠ []) : ∃ e,
    (recordFailure cfg layout m now v).2 = (evict cfg layout m now).insert v e := by
  have hemp : v.isEmpty = false := by simpa using hv
  simp only [recordFailure, hemp, Bool.false_eq_true, if_false]
  split_ifs
  · exact ⟨_, rfl⟩
  · exact ⟨_, rfl⟩
  · exact ⟨_, rfl⟩

/-- A failure of another name leaves an entry as it is, if it is not evicted. -/
theorem lookup_recordFailure_ne (hne : u ≠ v) (h : evicted cfg layout m now ≠ some u) :
    (recordFailure cfg layout m now v).2.lookup u = m.lookup u := by
  by_cases hv : v = []
  · rw [hv]
    rfl
  · obtain ⟨e, he⟩ := exists_recordFailure cfg layout m now hv
    rw [he, AList.lookup_insert_ne hne, lookup_evict h]

/-- The element of a locked username stands. -/
theorem recordFailure_locked (hu : u ≠ []) (hen : cfg.enabled = true)
    (h : evicted cfg layout m now ≠ some u) {e : Entry} (he : m.lookup u = some e)
    (hl : now < e.lockedUntil) : (recordFailure cfg layout m now u).2.lookup u = some e := by
  have hemp : u.isEmpty = false := by simpa using hu
  have hlook := (lookup_evict h).trans he
  simp only [recordFailure, hemp, Bool.false_eq_true, if_false, hlook, Option.getD_some, hen, hl,
    and_self, if_true, AList.lookup_insert]

/-- The element after a failure that is counted, from the element `e` before it. -/
def counted (cfg : Config) (e : Entry) (now : Int) : Entry :=
  if trips cfg (bump cfg e now) now then
    { bump cfg e now with lockedUntil := now + cfg.duration }
  else bump cfg e now

/-- A failure is counted, if the name is not locked. -/
theorem recordFailure_counted (hu : u ≠ [])
    (hl : ¬ now < (((evict cfg layout m now).lookup u).getD {}).lockedUntil) :
    (recordFailure cfg layout m now u).2.lookup u =
      some (counted cfg (((evict cfg layout m now).lookup u).getD {}) now) := by
  have hemp : u.isEmpty = false := by simpa using hu
  simp only [recordFailure, hemp, Bool.false_eq_true, if_false, hl, and_false, counted]
  split_ifs <;> rw [AList.lookup_insert]

/-- A failure opens the window of a username: its element is new, or the window that it has is
    over, and it is not locked. -/
def Opens (cfg : Config) (layout : Layout Bytes Entry) (m : Failures) (now : Int) (u : Bytes) :
    Prop :=
  let e := ((evict cfg layout m now).lookup u).getD {}
  ¬ now < e.lockedUntil ∧ (e.firstFailureAt = 0 ∨ cfg.window ≤ now - e.firstFailureAt)

/-- The element of a username whose window was opened at `t`, after `n` failures, the last one at
    `last`: it is locked from the threshold on. -/
def windowEntry (cfg : Config) (t n last : Int) : Entry :=
  ⟨n, t, if cfg.threshold ≤ n then last + cfg.duration else 0⟩

/-- A failure that opens a window is the first one in it. -/
theorem recordFailure_opens (hu : u ≠ []) (hen : cfg.enabled = true) (hnow : 0 < now)
    (h : Opens cfg layout m now u) :
    (recordFailure cfg layout m now u).2.lookup u = some (windowEntry cfg now 1 now) := by
  rw [recordFailure_counted hu h.1, counted, bump, if_pos h.2, windowEntry]
  split_ifs with h₁ h₂ h₂
  · rfl
  · exact absurd h₁.2.1 h₂
  · exact absurd ⟨hen, h₂, hnow.le⟩ h₁
  · rfl

/-- A failure in the window of a username that is not locked yet. -/
theorem recordFailure_counting (hu : u ≠ []) (hen : cfg.enabled = true)
    (h : evicted cfg layout m now ≠ some u) {n last : Int} (ht : 0 < t) (htn : t ≤ now)
    (he : m.lookup u = some (windowEntry cfg t n last)) (hn : n < cfg.threshold)
    (hw : now < t + cfg.window) :
    (recordFailure cfg layout m now u).2.lookup u = some (windowEntry cfg t (n + 1) now) := by
  have hz : windowEntry cfg t n last = ⟨n, t, 0⟩ := by rw [windowEntry, if_neg (not_le.2 hn)]
  have hlook := (lookup_evict h).trans he
  have hbump : bump cfg ⟨n, t, 0⟩ now = ⟨n + 1, t, 0⟩ := by
    rw [bump, if_neg]
    simp only
    omega
  have hlocked : ¬ now < (((evict cfg layout m now).lookup u).getD {}).lockedUntil := by
    rw [hlook, Option.getD_some, hz]
    simp only
    omega
  rw [recordFailure_counted hu hlocked, hlook, Option.getD_some, hz, counted, hbump, windowEntry]
  split_ifs with h₁ h₂ h₂
  · rfl
  · exact absurd h₁.2.1 h₂
  · exact absurd ⟨hen, h₂, ht.le.trans htn⟩ h₁
  · rfl

/-- A reset leaves the other names. -/
theorem lookup_reset_ne (hne : u ≠ v) : (reset m v).lookup u = m.lookup u := by
  unfold reset
  split_ifs
  · rfl
  · exact AList.lookup_erase_ne hne

/-- A name is locked until the time of its entry. -/
theorem isLocked_iff (hu : u ≠ []) :
    (isLocked m now u).1 = true ↔ ∃ e, m.lookup u = some e ∧ now < e.lockedUntil := by
  have hemp : u.isEmpty = false := by simpa using hu
  rw [isLocked, hemp, if_neg (by simp)]
  cases m.lookup u with
  | none => simp
  | some e =>
    by_cases hl : now < e.lockedUntil <;> simp [hl]

end LiteCode.LoginFailureTracker
