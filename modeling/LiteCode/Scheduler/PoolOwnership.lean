import LiteCode.Lib.ListIndex
import LiteCode.Scheduler.WarmPool

/-!
# Who owns a container of the pool

A container that `start` or the refill thread of `src/judge/warm_pool.h` puts into the pool is
idle there until an `acquire` takes it, or `shutdown` takes it for removal. The `create` calls run
outside the mutex, so that `acquire` and `shutdown` come between the check of the size and the push
of the new container.

The steps are those of a pool that is started once and shut down once (`Admits`), with a docker
that gives every container a new id. Only one thread puts containers in at a time: `start`, and
after it the refill thread, which `shutdown` joins before it takes what is left.

* `places`: how often a container is idle, handed out or taken for removal;
* `Owned`: every container of the pool is at exactly one place, and the pool is within its target;
* `owned_of_reach`: this holds in every execution.
-/

namespace LiteCode.WarmPool

/-- The call returned the container `id`. -/
def Acquire.gave (id : Bytes) : Acquire → Bool
  | .returned (some c) => c.id = id
  | _ => false

/-- How many `acquire` calls returned the container `id`. -/
def handed (s : State) (id : Bytes) : Nat := s.acquires.countP (Acquire.gave id)

/-- The places where the container `id` is: idle, with a caller, or taken by `shutdown`. -/
def places (s : State) (id : Bytes) : Nat := s.idle.count id + handed s id + s.removed.count id

/-- Every container of the pool is at exactly one place, no container is given to two callers, the
    pool is not above its target, and it is empty once `shutdown` returned. -/
structure Owned (s : State) : Prop where
  once : ∀ id ∈ s.pooled, places s id = 1
  handed_le : ∀ id, handed s id ≤ 1
  bound : s.idle.length ≤ s.target
  empty : s.shuttingDown = true → s.control = .idle → s.idle = []

/-- The id of a new container: docker did not give it before. -/
def Fresh (s : State) (id : Bytes) : Prop := id ∉ s.pooled ∧ handed s id = 0

/-- The steps with one `start` that is completed, one `shutdown`, and new ids. -/
def Admits (s : State) : Action → Prop
  | .start _ => s.control = .idle ∧ s.running = false ∧ s.shuttingDown = false ∧ s.pooled = []
  | .shutdown => s.control = .idle ∧ s.shuttingDown = false
  | .fallback _ (some id) => Fresh s id
  | .refill (some id) => Fresh s id
  | .next (some id) => Fresh s id
  | _ => True

instance (s : State) (id : Bytes) : Decidable (Fresh s id) :=
  inferInstanceAs (Decidable (_ ∧ _))

instance (s : State) : (a : Action) → Decidable (Admits s a)
  | .start _ => inferInstanceAs (Decidable (_ ∧ _))
  | .shutdown => inferInstanceAs (Decidable (_ ∧ _))
  | .fallback _ (some id) => inferInstanceAs (Decidable (Fresh s id))
  | .refill (some id) => inferInstanceAs (Decidable (Fresh s id))
  | .next (some id) => inferInstanceAs (Decidable (Fresh s id))
  | .fallback _ none => isTrue trivial
  | .refill none => isTrue trivial
  | .next none => isTrue trivial
  | .acquire => isTrue trivial
  | .take _ => isTrue trivial
  | .release => isTrue trivial
  | .nudge => isTrue trivial
  | .spawnFails => isTrue trivial

variable {s s' : State} {a : Action} {r : Option Bytes} {id : Bytes} {p : Nat}

/-! ## The containers -/

/-- The accounts: what is idle or removed was put into the pool. -/
structure Ledger (s : State) : Prop where
  idle : ∀ id ∈ s.idle, id ∈ s.pooled
  removed : ∀ id ∈ s.removed, id ∈ s.pooled
  once : ∀ id ∈ s.pooled, places s id = 1
  handed_le : ∀ id, handed s id ≤ 1

/-- What a step can do with the containers. -/
inductive Move (s : State) (a : Action) (s' : State) : Prop
  /-- Nothing. -/
  | stay (hi : s'.idle = s.idle) (hp : s'.pooled = s.pooled) (hr : s'.removed = s.removed)
      (hh : ∀ id, handed s' id = handed s id)
  /-- A created container goes into the pool. -/
  | put (id : Bytes) (ha : a = .refill (some id) ∨ a = .next (some id))
      (hi : s'.idle = s.idle ++ [id]) (hp : s'.pooled = s.pooled ++ [id])
      (hr : s'.removed = s.removed) (hh : ∀ x, handed s' x = handed s x)
  /-- An idle container is handed out. -/
  | take (id : Bytes) (hi : s.idle = id :: s'.idle) (hp : s'.pooled = s.pooled)
      (hr : s'.removed = s.removed)
      (hh : ∀ x, handed s' x = handed s x + if x = id then 1 else 0)
  /-- A container is created for a caller. -/
  | create (p : Nat) (id : Bytes) (ha : a = .fallback p (some id)) (hi : s'.idle = s.idle)
      (hp : s'.pooled = s.pooled) (hr : s'.removed = s.removed)
      (hh : ∀ x, handed s' x = handed s x + if x = id then 1 else 0)
  /-- `shutdown` takes what is idle. -/
  | drain (hi : s'.idle = []) (hp : s'.pooled = s.pooled) (hr : s'.removed = s.removed ++ s.idle)
      (hh : ∀ id, handed s' id = handed s id)

theorem made_eq_some : made r = some id ↔ r = some id ∧ id ≠ [] := by
  simp [made, Option.filter_eq_some_iff]

/-- A call that has no container yet goes on without one. -/
theorem countP_gave_set {l : List Acquire} {c c' : Acquire} (hp : l[p]? = some c)
    (hc : c.gave id = false) (hc' : c'.gave id = false) :
    (l.set p c').countP (Acquire.gave id) = l.countP (Acquire.gave id) := by
  simpa [hc, hc'] using countP_set_add (y := c') (p := Acquire.gave id) hp

/-- A call that has no container yet returns one. -/
theorem countP_gave_returned {l : List Acquire} {c : Acquire} (d : IdleContainer)
    (hp : l[p]? = some c) (hc : c.gave id = false) :
    (l.set p (.returned (some d))).countP (Acquire.gave id) =
      l.countP (Acquire.gave id) + if id = d.id then 1 else 0 := by
  have hd : (Acquire.returned (some d)).gave id = decide (id = d.id) := by
    simp [Acquire.gave, eq_comm]
  simpa [hc, hd] using countP_set_add (y := .returned (some d)) (p := Acquire.gave id) hp

theorem take_move (h : take s p = some s') : Move s a s' := by
  rw [take] at h
  split at h
  · next hp =>
    split at h
    · cases h
      exact .stay rfl rfl rfl fun _ => countP_gave_set hp rfl rfl
    · next id idle hidle =>
      cases h
      exact .take id hidle rfl rfl fun _ => countP_gave_returned ⟨id, true⟩ hp rfl
  · cases h

theorem fallback_move (h : fallback true s p r = some s') : Move s (.fallback p r) s' := by
  rw [fallback] at h
  split at h
  · next hp =>
    cases hm : made r with
    | none =>
      simp only [hm, Option.map_none, if_true] at h
      cases h
      exact .stay rfl rfl rfl fun _ => countP_gave_set hp rfl rfl
    | some id =>
      obtain ⟨rfl, -⟩ := made_eq_some.1 hm
      simp only [hm, Option.map_some, if_true] at h
      cases h
      exact .create p id rfl rfl rfl rfl fun _ => countP_gave_returned ⟨id, false⟩ hp rfl
  · cases h

theorem enter_move {pc : Control} (hi : s'.idle = s.idle) (hp : s'.pooled = s.pooled)
    (hr : s'.removed = s.removed) (ha : s'.acquires = s.acquires) : Move s a (enter s' pc) := by
  have hh : ∀ id, handed s' id = handed s id := fun id => by rw [handed, ha, handed]
  rw [enter]
  split_ifs
  · exact .stay hi hp hr hh
  · exact .stay hi hp hr hh

theorem stay_of_goto {pc : RefillPc} (h : s.goto pc = some s') : Move s a s' := by
  cases h
  exact .stay rfl rfl rfl fun _ => rfl

theorem refillLoop_move (h : refillLoop true s r = some s') : Move s (.refill r) s' := by
  rw [refillLoop] at h
  split at h
  · cases h
  · cases h
  · cases h
    exact .stay rfl rfl rfl fun _ => rfl
  · next pc _ =>
    cases pc with
    | sizing =>
      simp only at h
      split_ifs at h
      · exact stay_of_goto h
      · cases h
        exact .stay rfl rfl rfl fun _ => rfl
    | creating cur tgt i =>
      simp only at h
      split at h
      · next id hm =>
        obtain ⟨rfl, -⟩ := made_eq_some.1 hm
        cases h
        exact .put id (.inl rfl) rfl rfl rfl fun _ => rfl
      · exact stay_of_goto h
    | exited => cases h
    | _ => exact stay_of_goto h

theorem next_move (h : next s r = some s') : Move s (.next r) s' := by
  rw [next] at h
  cases hc : s.control with
  | idle => simp [hc] at h
  | precreating i created =>
    simp only [hc] at h
    split at h
    · cases hm : made r with
      | some id =>
        obtain ⟨rfl, -⟩ := made_eq_some.1 hm
        simp only [hm, Option.some.injEq] at h
        subst h
        exact .put id (.inr rfl) rfl rfl rfl fun _ => rfl
      | none =>
        simp only [hm, Option.some.injEq] at h
        subst h
        exact .stay rfl rfl rfl fun _ => rfl
    · cases h
      exact .stay rfl rfl rfl fun _ => rfl
  | starting created =>
    simp only [hc, Option.some.injEq] at h
    subst h
    exact .stay rfl rfl rfl fun _ => rfl
  | spawning created =>
    simp only [hc] at h
    split at h
    · cases h
      exact .stay rfl rfl rfl fun _ => rfl
    · cases h
      exact .stay rfl rfl rfl fun _ => rfl
  | nudging =>
    simp only [hc, Option.some.injEq] at h
    subst h
    exact .stay rfl rfl rfl fun _ => rfl
  | flagging =>
    simp only [hc, Option.some.injEq] at h
    subst h
    exact .stay rfl rfl rfl fun _ => rfl
  | notifying =>
    simp only [hc, Option.some.injEq] at h
    subst h
    exact .stay rfl rfl rfl fun _ => rfl
  | joining =>
    simp only [hc] at h
    split at h
    · cases h
      exact .stay rfl rfl rfl fun _ => rfl
    · cases h
      exact .stay rfl rfl rfl fun _ => rfl
    · cases h
  | draining =>
    simp only [hc, Option.some.injEq] at h
    subst h
    exact .drain rfl rfl rfl fun _ => rfl
  | stopping =>
    simp only [hc, Option.some.injEq] at h
    subst h
    exact .stay rfl rfl rfl fun _ => rfl

theorem step_move (h : step true s a = some s') : Move s a s' := by
  unfold step at h
  split_ifs at h
  cases a with
  | acquire =>
    cases h
    refine .stay rfl rfl rfl fun id => ?_
    simp only [handed, acquire, List.countP_append, List.countP_singleton]
    split <;> rfl
  | take p => exact take_move h
  | fallback p r => exact fallback_move h
  | release =>
    cases h
    rw [release]
    split_ifs <;> exact .stay rfl rfl rfl fun _ => rfl
  | nudge =>
    simp only [nudge] at h
    split_ifs at h
    cases h
    exact .stay rfl rfl rfl fun _ => rfl
  | refill r => exact refillLoop_move h
  | start cfg =>
    cases h
    rw [start]
    dsimp only
    split_ifs
    · exact .stay rfl rfl rfl fun _ => rfl
    · exact .stay rfl rfl rfl fun _ => rfl
    · exact enter_move rfl rfl rfl rfl
    · exact .stay rfl rfl rfl fun _ => rfl
  | shutdown =>
    cases h
    exact enter_move rfl rfl rfl rfl
  | next r => exact next_move h
  | spawnFails =>
    simp only [spawnFails] at h
    split at h
    · cases h
      exact .stay rfl rfl rfl fun _ => rfl
    · cases h

theorem places_eq_zero (h : Ledger s) (hf : Fresh s id) : places s id = 0 := by
  have hi : s.idle.count id = 0 := List.count_eq_zero.2 fun hm => hf.1 (h.idle id hm)
  have hr : s.removed.count id = 0 := List.count_eq_zero.2 fun hm => hf.1 (h.removed id hm)
  rw [places, hi, hf.2, hr]

theorem Ledger.move (h : Ledger s) (hg : Admits s a) (hm : Move s a s') : Ledger s' := by
  cases hm with
  | stay hi hp hr hh =>
    refine ⟨hi ▸ hp ▸ h.idle, hr ▸ hp ▸ h.removed, fun id hid => ?_, fun id => ?_⟩
    · rw [places, hi, hr, hh]
      exact h.once id (hp ▸ hid)
    · rw [hh]
      exact h.handed_le id
  | put id ha hi hp hr hh =>
    have hf : Fresh s id := by
      rcases ha with rfl | rfl <;> exact hg
    refine ⟨fun x hx => ?_, fun x hx => ?_, fun x hx => ?_, fun x => ?_⟩
    · rw [hi, List.mem_append] at hx
      rw [hp, List.mem_append]
      exact hx.imp_left (h.idle x)
    · rw [hp, List.mem_append]
      exact .inl (h.removed x (hr ▸ hx))
    · have hpl : places s' x = places s x + [id].count x := by
        simp only [places, hi, hr, hh, List.count_append]
        omega
      rw [hp, List.mem_append, List.mem_singleton] at hx
      rcases hx with hx | rfl
      · have hne : x ≠ id := fun he => hf.1 (he ▸ hx)
        rw [hpl, h.once x hx, List.count_eq_zero.2 (by simpa using hne)]
      · rw [hpl, places_eq_zero h hf, List.count_singleton_self]
    · rw [hh]
      exact h.handed_le x
  | take id hi hp hr hh =>
    have hpl : ∀ x, places s' x = places s x := by
      intro x
      simp only [places, hi, hr, hh, List.count_cons, beq_iff_eq, eq_comm (a := id)]
      omega
    have hid : id ∈ s.pooled := h.idle id (by simp [hi])
    refine ⟨fun x hx => ?_, hr ▸ hp ▸ h.removed, fun x hx => ?_, fun x => ?_⟩
    · rw [hp]
      exact h.idle x (by simp [hi, hx])
    · rw [hpl]
      exact h.once x (hp ▸ hx)
    · -- it was idle, so it was at no caller
      have := h.once id hid
      have hx := h.handed_le x
      rw [places, hi, List.count_cons_self] at this
      rw [hh]
      split_ifs with he
      · subst he
        omega
      · omega
  | create p id ha hi hp hr hh =>
    subst ha
    refine ⟨hi ▸ hp ▸ h.idle, hr ▸ hp ▸ h.removed, fun x hx => ?_, fun x => ?_⟩
    · rw [hp] at hx
      have hne : x ≠ id := fun he => hg.1 (he ▸ hx)
      rw [places, hi, hr, hh, if_neg hne]
      exact h.once x hx
    · have hx := h.handed_le x
      rw [hh]
      split_ifs with he
      · have hnone := hg.2
        rw [← he] at hnone
        omega
      · exact hx
  | drain hi hp hr hh =>
    refine ⟨by simp [hi], fun x hx => ?_, fun x hx => ?_, fun x => ?_⟩
    · rw [hr, List.mem_append] at hx
      rw [hp]
      exact hx.elim (h.removed x) (h.idle x)
    · have := h.once x (hp ▸ hx)
      simp only [places, hi, hr, hh, List.count_append, List.count_nil] at this ⊢
      omega
    · rw [hh]
      exact h.handed_le x

/-! ## The size of the pool -/

/-- The refill thread found the pool below its target, and is to put a container in. -/
def RefillPc.creates : RefillPc → Bool
  | .below _ _ | .attempt _ _ _ | .creating _ _ _ => true
  | _ => false

/-- The points of `start` and `shutdown` where a refill thread may be there. -/
def Control.refills : Control → Bool
  | .idle | .nudging | .flagging | .notifying | .joining => true
  | _ => false

/-- The points of `shutdown` after the flag was set. -/
def Control.stops : Control → Bool
  | .idle | .notifying | .joining | .draining | .stopping => true
  | _ => false

/-- How far `start`, the refill thread and `shutdown` are. -/
structure Phase (s : State) : Prop where
  bound : s.idle.length ≤ s.target
  precreating : ∀ i created, s.control = .precreating i created → s.idle.length ≤ i
  room : ∀ pc, s.refill = some (.awake pc) → pc.creates → s.idle.length < s.target
  refills : s.refill ≠ none → s.running = true ∧ s.control.refills
  spawning : ∀ created, s.control = .spawning created → s.running = true
  stops : s.shuttingDown = true → s.control.stops
  drained : s.shuttingDown = true → s.control = .stopping ∨ s.control = .idle →
    s.idle = [] ∧ s.refill = none

/-- A step of a caller, or one of the refill thread that puts nothing in: it does not come to the
    point of creating a container without having seen that one is missing. -/
theorem Phase.keep (h : Phase s) (hi : s'.idle.length ≤ s.idle.length)
    (ht : s'.target = s.target) (hc : s'.control = s.control) (hrun : s'.running = s.running)
    (hf : s'.shuttingDown = s.shuttingDown) (hn : s'.refill = none ↔ s.refill = none)
    (hr : ∀ pc, s'.refill = some (.awake pc) → pc.creates →
      s.idle.length < s.target ∨ ∃ pc', s.refill = some (.awake pc') ∧ pc'.creates) :
    Phase s' := by
  refine ⟨?_, fun i c hp => ?_, fun pc hpc hcr => ?_, ?_, ?_, ?_, fun hsd hcl => ?_⟩
  · rw [ht]
    exact Nat.le_trans hi h.bound
  · exact Nat.le_trans hi (h.precreating i c (hc ▸ hp))
  · rw [ht]
    refine Nat.lt_of_le_of_lt hi ?_
    rcases hr pc hpc hcr with hlt | ⟨pc', hpc', hcr'⟩
    · exact hlt
    · exact h.room pc' hpc' hcr'
  · rw [hrun, hc, ne_eq, hn]
    exact h.refills
  · rw [hrun, hc]
    exact h.spawning
  · rw [hf, hc]
    exact h.stops
  · rw [hf] at hsd
    rw [hc] at hcl
    obtain ⟨hidle, hnone⟩ := h.drained hsd hcl
    refine ⟨List.length_eq_zero_iff.1 ?_, hn.2 hnone⟩
    rw [hidle] at hi
    exact Nat.le_zero.1 hi

/-- A step of a caller. -/
theorem Phase.caller (h : Phase s) (hi : s'.idle.length ≤ s.idle.length)
    (ht : s'.target = s.target) (hc : s'.control = s.control) (hrun : s'.running = s.running)
    (hf : s'.shuttingDown = s.shuttingDown) (hr : s'.refill = s.refill) : Phase s' :=
  h.keep hi ht hc hrun hf (by rw [hr]) fun pc hpc hcr => .inr ⟨pc, hr ▸ hpc, hcr⟩

/-- The refill thread goes on at `pc`. -/
theorem Phase.goto {pc : RefillPc} (h : Phase s) (hs : s.goto pc = some s') (hn : s.refill ≠ none)
    (hr : pc.creates → s.idle.length < s.target ∨
      ∃ pc', s.refill = some (.awake pc') ∧ pc'.creates) : Phase s' := by
  cases hs
  refine h.keep (Nat.le_refl _) rfl rfl rfl rfl (iff_of_false (by simp) hn) ?_
  rintro _ ⟨⟩
  exact hr

/-- A notification wakes the refill thread before its wait predicate. -/
theorem Phase.notifyAll (h : Phase s) : Phase s.notifyAll := by
  refine h.keep (Nat.le_refl _) rfl rfl rfl rfl Option.map_eq_none_iff fun pc hpc hcr => .inr ?_
  obtain ⟨w, hw, he⟩ := Option.map_eq_some_iff.1 hpc
  rcases Waiter.wake_eq_awake he with rfl | ⟨rfl, rfl⟩
  · exact ⟨pc, hw, hcr⟩
  · cases hcr

theorem Phase.refillLoop (h : Phase s) (hs : refillLoop true s r = some s') : Phase s' := by
  rw [WarmPool.refillLoop] at hs
  split at hs
  · cases hs
  · cases hs
  · next hw =>
    cases hs
    refine h.keep (Nat.le_refl _) rfl rfl rfl rfl (by simp [hw]) ?_
    rintro _ ⟨⟩
  · next pc hw =>
    have hn : s.refill ≠ none := by simp [hw]
    cases pc with
    | head => exact h.goto hs hn (by split <;> rintro ⟨⟩)
    | ready => exact h.goto hs hn (by split <;> rintro ⟨⟩)
    | sizing =>
      simp only at hs
      split_ifs at hs
      · exact h.goto hs hn (by rintro ⟨⟩)
      · cases hs
        refine h.keep (Nat.le_refl _) rfl rfl rfl rfl (iff_of_false (by simp) hn) ?_
        rintro _ ⟨⟩
    | woken => exact h.goto hs hn (by split <;> rintro ⟨⟩)
    | gap =>
      simp only at hs
      split_ifs at hs with hle
      · exact h.goto hs hn (by rintro ⟨⟩)
      · exact h.goto hs hn fun _ => .inl (Nat.lt_of_not_le hle)
    | below cur tgt => exact h.goto hs hn fun _ => .inr ⟨_, hw, rfl⟩
    | attempt cur tgt i => exact h.goto hs hn fun _ => .inr ⟨_, hw, rfl⟩
    | creating cur tgt i =>
      simp only at hs
      split at hs
      · -- the container that was found missing is put in
        next id _ =>
        have hlt := h.room _ hw rfl
        obtain ⟨hrun, hctl⟩ := h.refills hn
        cases hs
        refine ⟨?_, fun i c hc => ?_, ?_, fun _ => ⟨hrun, hctl⟩, h.spawning, h.stops,
          fun hsd hc => ?_⟩
        · rw [State.put, List.length_append]
          exact hlt
        · rw [show s.control = _ from hc] at hctl
          cases hctl
        · rintro _ ⟨⟩ ⟨⟩
        · exact absurd (h.drained hsd hc).2 hn
      · exact h.goto hs hn fun _ => .inr ⟨_, hw, rfl⟩
    | gaveUp cur tgt => exact h.goto hs hn (by split <;> rintro ⟨⟩)
    | exited => cases hs

theorem Phase.refill_eq_none (h : Phase s) (hc : s.control.refills = false) : s.refill = none := by
  by_contra hn
  have := (h.refills hn).2
  rw [hc] at this
  cases this

theorem Phase.not_flagged (h : Phase s) (hc : s.control.stops = false) :
    s.shuttingDown = false := by
  by_contra hn
  have := h.stops (eq_true_of_ne_false hn)
  rw [hc] at this
  cases this

/-- A point of `start` before the refill thread is there. -/
theorem Phase.of_start (hb : s.idle.length ≤ s.target)
    (hpre : ∀ i created, s.control = .precreating i created → s.idle.length ≤ i)
    (hr : s.refill = none) (hspawn : ∀ created, s.control = .spawning created → s.running = true)
    (hf : s.shuttingDown = false) : Phase s := by
  refine ⟨hb, hpre, fun pc hpc => ?_, fun hn => absurd hr hn, hspawn, ?_, ?_⟩
  · rw [hr] at hpc
    cases hpc
  · rw [hf]
    rintro ⟨⟩
  · rw [hf]
    rintro ⟨⟩

/-- `start` or `shutdown` goes on to a point where the refill thread may still be there. -/
theorem Phase.control (h : Phase s) (hi : s'.idle = s.idle) (ht : s'.target = s.target)
    (hrun : s'.running = s.running) (hr : s'.refill = s.refill) (hc : s'.control.refills)
    (hs : s'.shuttingDown = true → s'.control = .notifying ∨ s'.control = .joining) : Phase s' := by
  refine ⟨?_, fun i c hp => ?_, ?_, fun hn => ?_, fun c hp => ?_, fun hf => ?_, fun hf hd => ?_⟩
  · rw [hi, ht]
    exact h.bound
  · rw [hp] at hc
    cases hc
  · rw [hi, ht, hr]
    exact h.room
  · rw [hr] at hn
    exact ⟨hrun.trans (h.refills hn).1, hc⟩
  · rw [hp] at hc
    cases hc
  · rcases hs hf with hn | hn <;> rw [hn] <;> rfl
  · rcases hs hf with hn | hn <;> simp [hn] at hd

theorem Phase.next (h : Phase s) (hs : next s r = some s') : Phase s' := by
  rw [WarmPool.next] at hs
  cases hc : s.control with
  | idle => simp [hc] at hs
  | precreating i created =>
    have hf : s.shuttingDown = false := h.not_flagged (by rw [hc]; rfl)
    have hnone : s.refill = none := h.refill_eq_none (by rw [hc]; rfl)
    have hi := h.precreating i created hc
    simp only [hc] at hs
    split at hs
    · next hlt =>
      split at hs
      · -- one container more, of one attempt more
        next id _ =>
        cases hs
        have hlen : (s.idle ++ [id]).length ≤ i + 1 := by simpa using hi
        refine Phase.of_start (Nat.le_trans hlen hlt) ?_ hnone (by simp) hf
        rintro _ _ ⟨⟩
        exact hlen
      · cases hs
        refine Phase.of_start h.bound ?_ hnone (by simp) hf
        rintro _ _ ⟨⟩
        exact Nat.le_succ_of_le hi
    · cases hs
      refine Phase.of_start h.bound (fun i c => ?_) hnone (fun c => ?_) hf <;> dsimp only <;>
        split <;> rintro ⟨⟩
  | starting created =>
    simp only [hc, Option.some.injEq] at hs
    subst hs
    exact Phase.of_start h.bound (by simp) (h.refill_eq_none (by rw [hc]; rfl)) (fun _ _ => rfl)
      (h.not_flagged (by rw [hc]; rfl))
  | spawning created =>
    have hnone : s.refill = none := h.refill_eq_none (by rw [hc]; rfl)
    have hf : s.shuttingDown = false := h.not_flagged (by rw [hc]; rfl)
    simp only [hc, hnone, Option.some.injEq] at hs
    subst hs
    refine ⟨h.bound, fun i c => ?_, ?_, fun _ => ⟨h.spawning created hc, ?_⟩, fun c => ?_, ?_, ?_⟩
    · dsimp only
      split <;> rintro ⟨⟩
    · rintro _ ⟨⟩ ⟨⟩
    · dsimp only
      split <;> rfl
    · dsimp only
      split <;> rintro ⟨⟩
    · dsimp only
      rw [hf]
      rintro ⟨⟩
    · dsimp only
      rw [hf]
      rintro ⟨⟩
  | nudging =>
    have hf : s.shuttingDown = false := h.not_flagged (by rw [hc]; rfl)
    simp only [hc, Option.some.injEq] at hs
    subst hs
    refine h.notifyAll.control rfl rfl rfl rfl rfl fun h' => ?_
    rw [show s.shuttingDown = true from h'] at hf
    cases hf
  | flagging =>
    simp only [hc, Option.some.injEq] at hs
    subst hs
    exact h.control rfl rfl rfl rfl rfl fun _ => .inl rfl
  | notifying =>
    simp only [hc, Option.some.injEq] at hs
    subst hs
    exact h.notifyAll.control rfl rfl rfl rfl rfl fun _ => .inr rfl
  | joining =>
    simp only [hc] at hs
    have hjoin : Phase { s with refill := none, control := .draining } :=
      ⟨h.bound, by simp, by simp, by simp, by simp, fun _ => rfl, by simp⟩
    split at hs
    · next hnone =>
      cases hs
      rw [← hnone] at hjoin
      exact hjoin
    · cases hs
      exact hjoin
    · cases hs
  | draining =>
    have hnone : s.refill = none := h.refill_eq_none (by rw [hc]; rfl)
    simp only [hc, Option.some.injEq] at hs
    subst hs
    exact ⟨Nat.zero_le _, by simp, by simp [hnone], by simp [hnone], by simp, fun _ => rfl,
      fun _ _ => ⟨rfl, hnone⟩⟩
  | stopping =>
    have hnone : s.refill = none := h.refill_eq_none (by rw [hc]; rfl)
    simp only [hc, Option.some.injEq] at hs
    subst hs
    exact ⟨h.bound, by simp, by simp [hnone], by simp [hnone], by simp, fun _ => rfl,
      fun hf _ => h.drained hf (.inl hc)⟩

theorem Phase.step (h : Phase s) (hl : Ledger s) (hg : Admits s a)
    (hs : step true s a = some s') : Phase s' := by
  unfold WarmPool.step at hs
  split_ifs at hs
  cases a with
  | acquire =>
    cases hs
    exact h.caller (Nat.le_refl _) rfl rfl rfl rfl rfl
  | take p =>
    simp only [take] at hs
    split at hs
    · split at hs
      · cases hs
        exact h.caller (Nat.le_refl _) rfl rfl rfl rfl rfl
      · next id idle hidle =>
        cases hs
        exact h.caller (by simp [hidle]) rfl rfl rfl rfl rfl
    · cases hs
  | fallback p r =>
    simp only [fallback] at hs
    split at hs
    · cases hs
      exact h.caller (Nat.le_refl _) rfl rfl rfl rfl rfl
    · cases hs
  | release =>
    cases hs
    rw [release]
    split_ifs
    · exact h.caller (Nat.le_refl _) rfl rfl rfl rfl rfl
    · exact h
  | nudge =>
    simp only [nudge] at hs
    split_ifs at hs
    cases hs
    exact h.notifyAll.caller (Nat.le_refl _) rfl rfl rfl rfl rfl
  | refill r => exact h.refillLoop hs
  | start cfg =>
    -- A `start` is admitted only before anything runs: nothing is idle, and no thread refills.
    obtain ⟨hc, hrun, hf, hp⟩ := hg
    have hidle : s.idle = [] := by
      refine List.eq_nil_iff_forall_not_mem.2 fun id hid => ?_
      simpa [hp] using hl.idle id hid
    have hnone : s.refill = none := by
      by_contra hn
      have := (h.refills hn).1
      rw [hrun] at this
      cases this
    cases hs
    rw [start]
    dsimp only
    split_ifs
    · exact h
    · exact Phase.of_start (by simp [hidle]) (by simp [hc]) hnone (by simp [hc]) hf
    · simp only [enter, hc, if_true]
      exact Phase.of_start (by simp [hidle]) (by simp [hidle]) hnone (by simp) hf
    · simp at *
  | shutdown =>
    -- A `shutdown` is admitted only while the flag is down.
    obtain ⟨hc, hf⟩ := hg
    cases hs
    simp only [shutdown, enter, hc, if_true]
    refine h.control rfl rfl rfl rfl rfl fun h' => ?_
    rw [show s.shuttingDown = true from h'] at hf
    cases hf
  | next r => exact h.next hs
  | spawnFails =>
    simp only [spawnFails] at hs
    split at hs
    · next created hc =>
      cases hs
      exact Phase.of_start h.bound (by simp) (h.refill_eq_none (by rw [hc]; rfl)) (by simp)
        (h.not_flagged (by rw [hc]; rfl))
    · cases hs

/-- In every execution with one `start` and one `shutdown`, whatever the interleaving with the
    callers and the refill thread: every container that was put into the pool is idle, or given
    to one caller, or taken for removal, the pool is not above its target, and it is empty once
    `shutdown` returned. -/
theorem owned_of_reach (s : State) (h : (system true).Reach Admits s) : Owned s := by
  have hinv : Ledger s ∧ Phase s := by
    refine h.invariant (P := fun s => Ledger s ∧ Phase s) (fun s hs => ?_)
      fun t a t' ht hg hs => ?_
    · subst hs
      refine ⟨⟨?_, ?_, ?_, ?_⟩, Phase.of_start ?_ ?_ ?_ ?_ ?_⟩ <;> simp [State.new, handed]
    · exact ⟨ht.1.move hg (step_move hs), ht.2.step ht.1 hg hs⟩
  exact ⟨hinv.1.once, hinv.1.handed_le, hinv.2.bound,
    fun hf hc => (hinv.2.drained hf (.inr hc)).1⟩

/-- A pool of two containers: one is taken, the refill thread puts a third one in, and `shutdown`
    takes the other two. -/
def oneTaken : List Action :=
  [.start ⟨2, 2⟩, .next (some (bytes "c1")), .next (some (bytes "c2")), .next none, .next none,
    .next none, .acquire, .take 0, .release, .nudge] ++ List.replicate 7 (.refill none) ++
  [.refill (some (bytes "c3")), .shutdown, .next none, .next none, .refill none, .refill none,
    .next none, .next none, .next none]

/-- The run `oneTaken` ends with every container at its place. -/
theorem owned_oneTaken : ∃ s, s.pooled = [bytes "c1", bytes "c2", bytes "c3"] ∧
    handed s (bytes "c1") = 1 ∧ s.removed = [bytes "c2", bytes "c3"] ∧
    s.shuttingDown = true ∧ s.control = .idle ∧ Owned s := by
  obtain ⟨s, hl, hs⟩ := System.exists_exec_of_runGuarded (S := system true) (G := Admits)
    (s := .new) (l := oneTaken) (p := fun s => s.pooled = [bytes "c1", bytes "c2", bytes "c3"] ∧
      handed s (bytes "c1") = 1 ∧ s.removed = [bytes "c2", bytes "c3"] ∧
      s.shuttingDown = true ∧ s.control = .idle) (by decide +kernel)
  obtain ⟨hp, hh, hr, hf, hc⟩ := of_decide_eq_true hs
  exact ⟨s, hp, hh, hr, hf, hc, owned_of_reach s ⟨.new, oneTaken, rfl, hl⟩⟩

end LiteCode.WarmPool
