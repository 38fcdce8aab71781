import Mathlib.Tactic.SplitIfs

/-!
# Systems of atomic steps

A system is a set of initial states and a partial step function: `step s a` is the state after
the action `a`, or `none` when `a` is not possible in `s`. Threads that share a state are such a
system, an action being the next atomic step of one of them; an execution is then one
interleaving of their steps.

* `System.Exec G s l s'`: from `s`, the actions `l` lead to `s'`, each of them taken in a state
  where the guard `G` admits it. With the guard `Always` every execution is meant.
* `System.Reach G s`: `s` is the end of such an execution from an initial state.
* `Reach.invariant`: what holds initially and is kept by every guarded step holds in every
  reachable state. `Exec.invariant` is its form for executions from any state.
* `System.run`: executions as a function, to exhibit one (`exec_of_run`, `reach_of_run`).
-/

namespace LiteCode

universe u v

/-- A system with states `σ` and atomic actions `α`. -/
structure System (σ : Type u) (α : Type v) where
  /-- The initial states. -/
  init : σ → Prop
  /-- The state after an action, `none` when it is not enabled. -/
  step : σ → α → Option σ

namespace System

variable {σ : Type u} {α : Type v}

/-- The guard that admits every step. -/
def Always : σ → α → Prop := fun _ _ => True

/-- An execution whose steps are all admitted by the guard `G`. -/
inductive Exec (S : System σ α) (G : σ → α → Prop) : σ → List α → σ → Prop
  | nil (s : σ) : Exec S G s [] s
  | snoc {s t t' : σ} {l : List α} {a : α} :
      Exec S G s l t → G t a → S.step t a = some t' → Exec S G s (l ++ [a]) t'

/-- The states reached from the initial ones by steps that `G` admits. -/
def Reach (S : System σ α) (G : σ → α → Prop) (s : σ) : Prop :=
  ∃ s₀ l, S.init s₀ ∧ S.Exec G s₀ l s

variable {S : System σ α} {G : σ → α → Prop}

theorem Reach.init {s : σ} (h : S.init s) : S.Reach G s := ⟨s, [], h, .nil s⟩

theorem Reach.step {s s' : σ} {a : α} (h : S.Reach G s) (hg : G s a)
    (hs : S.step s a = some s') : S.Reach G s' := by
  obtain ⟨s₀, l, h₀, hl⟩ := h
  exact ⟨s₀, l ++ [a], h₀, .snoc hl hg hs⟩

/-- A predicate kept by the steps of an execution holds at its end. -/
theorem Exec.invariant {P : σ → Prop} {s s' : σ} {l : List α} (h : S.Exec G s l s') (h₀ : P s)
    (hstep : ∀ t a t', P t → G t a → S.step t a = some t' → P t') : P s' := by
  induction h with
  | nil => exact h₀
  | snoc _ hg hs ih => exact hstep _ _ _ ih hg hs

/-- A predicate that holds initially and is kept by the steps holds in every reachable state. -/
theorem Reach.invariant {P : σ → Prop} {s : σ} (h : S.Reach G s) (h₀ : ∀ s, S.init s → P s)
    (hstep : ∀ t a t', P t → G t a → S.step t a = some t' → P t') : P s := by
  obtain ⟨s₀, l, hi, hl⟩ := h
  exact hl.invariant (h₀ _ hi) hstep

/-- Steps admitted by a guard are admitted by a weaker one. -/
theorem Exec.mono {G' : σ → α → Prop} (hG : ∀ s a, G s a → G' s a) {s s' : σ} {l : List α}
    (h : S.Exec G s l s') : S.Exec G' s l s' := by
  induction h with
  | nil => exact .nil _
  | snoc _ hg hs ih => exact .snoc ih (hG _ _ hg) hs

theorem Reach.mono {G' : σ → α → Prop} (hG : ∀ s a, G s a → G' s a) {s : σ}
    (h : S.Reach G s) : S.Reach G' s := by
  obtain ⟨s₀, l, h₀, hl⟩ := h
  exact ⟨s₀, l, h₀, hl.mono hG⟩

/-- An execution goes on from where another one ended. -/
theorem Reach.exec {s s' : σ} {l : List α} (h : S.Reach G s) (hl : S.Exec G s l s') :
    S.Reach G s' := by
  induction hl with
  | nil => exact h
  | snoc _ hg hs ih => exact ih.step hg hs

/-! ## Executions as a function -/

/-- The state after a list of actions, when all of them are possible in turn. -/
def run (S : System σ α) (s : σ) : List α → Option σ
  | [] => some s
  | a :: l => (S.step s a).bind fun t => S.run t l

/-- The executions that `run` computes, with a guard that is checked along. -/
def runGuarded (S : System σ α) (G : σ → α → Prop) [∀ s a, Decidable (G s a)] (s : σ) :
    List α → Option σ
  | [] => some s
  | a :: l => if G s a then (S.step s a).bind fun t => S.runGuarded G t l else none

/-- An execution with one more step in front. -/
theorem Exec.cons {s t s' : σ} {a : α} {l : List α} (hg : G s a) (hs : S.step s a = some t)
    (h : S.Exec G t l s') : S.Exec G s (a :: l) s' := by
  induction h with
  | nil => exact .snoc (.nil s) hg hs
  | snoc _ hg' hs' ih => exact .snoc ih hg' hs'

theorem exec_of_runGuarded [∀ s a, Decidable (G s a)] {s s' : σ} {l : List α}
    (hr : S.runGuarded G s l = some s') : S.Exec G s l s' := by
  induction l generalizing s with
  | nil =>
    cases hr
    exact .nil _
  | cons a l ih =>
    rw [runGuarded] at hr
    split_ifs at hr with hg
    obtain ⟨t, ht, hr⟩ := Option.bind_eq_some_iff.1 hr
    exact .cons hg ht (ih hr)

theorem exec_of_run {s s' : σ} {l : List α} (hr : S.run s l = some s') :
    S.Exec Always s l s' := by
  induction l generalizing s with
  | nil =>
    cases hr
    exact .nil _
  | cons a l ih =>
    obtain ⟨t, ht, hr⟩ := Option.bind_eq_some_iff.1 hr
    exact .cons trivial ht (ih hr)

/-- The end of an execution that `runGuarded` computes, with a property that is checked there. -/
theorem exists_exec_of_runGuarded [∀ s a, Decidable (G s a)] {s : σ} {l : List α} {p : σ → Bool}
    (h : (S.runGuarded G s l).any p = true) : ∃ s', S.Exec G s l s' ∧ p s' = true := by
  cases hr : S.runGuarded G s l with
  | none => simp [hr] at h
  | some s' =>
    rw [hr, Option.any_some] at h
    exact ⟨s', exec_of_runGuarded hr, h⟩

theorem exists_exec_of_run {s : σ} {l : List α} {p : σ → Bool}
    (h : (S.run s l).any p = true) : ∃ s', S.Exec Always s l s' ∧ p s' = true := by
  cases hr : S.run s l with
  | none => simp [hr] at h
  | some s' =>
    rw [hr, Option.any_some] at h
    exact ⟨s', exec_of_run hr, h⟩

theorem reach_of_runGuarded [∀ s a, Decidable (G s a)] {s s' : σ} {l : List α}
    (h : S.Reach G s) (hr : S.runGuarded G s l = some s') : S.Reach G s' :=
  h.exec (exec_of_runGuarded hr)

theorem reach_of_run {s s' : σ} {l : List α} (h : S.Reach Always s)
    (hr : S.run s l = some s') : S.Reach Always s' :=
  h.exec (exec_of_run hr)

end System

end LiteCode
