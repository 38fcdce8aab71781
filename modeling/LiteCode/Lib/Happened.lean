import LiteCode.Lib.System

/-!
# What happened in a run

Some properties of a state are about the run that led to it: that some step was taken before. They
are proved like an invariant, along the run.

* `System.Happened S G s₀ P l`: in the run `l` from `s₀`, a step of the kind `P` was taken;
* `Happened.concat`, `Exec.happened`: it stays so, and the last step counts;
* `Exec.trace`: the rule of induction for what is said of a state together with the run to it.
-/

namespace LiteCode.System

universe u v

variable {σ : Type u} {α : Type v} {S : System σ α} {G : σ → α → Prop} {s₀ s : σ} {l : List α}

/-- In the run `l` from `s₀` there is an action, and a state in which it was taken, with `P`. -/
def Happened (S : System σ α) (G : σ → α → Prop) (s₀ : σ) (P : σ → α → Prop) (l : List α) : Prop :=
  ∃ l₁ a l₂ s, l = l₁ ++ a :: l₂ ∧ S.Exec G s₀ l₁ s ∧ P s a

variable {P : σ → α → Prop}

theorem Happened.concat (h : S.Happened G s₀ P l) (a : α) : S.Happened G s₀ P (l ++ [a]) := by
  obtain ⟨l₁, b, l₂, s, rfl, hs, hP⟩ := h
  exact ⟨l₁, b, l₂ ++ [a], s, by simp, hs, hP⟩

theorem Exec.happened (h : S.Exec G s₀ l s) {a : α} (hP : P s a) : S.Happened G s₀ P (l ++ [a]) :=
  ⟨l, a, [], s, rfl, h, hP⟩

/-- A property of a run and its end that the steps of the run keep. -/
theorem Exec.trace {P : List α → σ → Prop} (h : S.Exec G s₀ l s) (h₀ : P [] s₀)
    (hstep : ∀ l s a s', S.Exec G s₀ l s → P l s → G s a → S.step s a = some s' →
      P (l ++ [a]) s') : P l s := by
  induction h with
  | nil => exact h₀
  | snoc h hg hs ih => exact hstep _ _ _ _ h ih hg hs

end LiteCode.System
