import LiteCode.Lib.System

/-!
# Hidden actions

A relation `R` between two states of a system that looks at only a part of each: what an action
writes elsewhere is *hidden* by a function, which drops the action, or replaces it by another one.

* `System.Hides`: an action that is dropped leads to a state that is related to the same ones, and
  two related states stay related when one takes an action and the other its replacement;
* `Exec.hide`: a run and the same run without what is hidden end in related states.
-/

namespace LiteCode.System

universe u v

variable {σ : Type u} {α : Type v} {S : System σ α} {G : σ → α → Prop} {f : α → Option α}
  {R : σ → σ → Prop}

/-- The steps that `G` admits are related to those that `f` makes of them. -/
structure Hides (S : System σ α) (G : σ → α → Prop) (f : α → Option α)
    (R : σ → σ → Prop) : Prop where
  dropped : ∀ {s s' t : σ} {a : α}, R s t → G s a → f a = none → S.step s a = some s' → R s' t
  kept : ∀ {s s' t : σ} {a b : α}, R s t → G s a → f a = some b → S.step s a = some s' →
    ∃ t', S.step t b = some t' ∧ R s' t'

/-- The run without what is hidden is possible, and its end is related to that of the run. -/
theorem Exec.hide (h : S.Hides G f R) {s s' t : σ} {l : List α} (hl : S.Exec G s l s')
    (hR : R s t) : ∃ t', S.Exec Always t (l.filterMap f) t' ∧ R s' t' := by
  induction hl with
  | nil => exact ⟨t, .nil t, hR⟩
  | @snoc u u' l a _ hg hs ih =>
    obtain ⟨t', hl', hR'⟩ := ih
    rw [List.filterMap_append]
    cases ha : f a with
    | none =>
      rw [List.filterMap_cons_none ha, List.filterMap_nil, List.append_nil]
      exact ⟨t', hl', h.dropped hR' hg ha hs⟩
    | some b =>
      obtain ⟨t'', hs', hR''⟩ := h.kept hR' hg ha hs
      rw [List.filterMap_cons_some ha, List.filterMap_nil]
      exact ⟨t'', .snoc hl' trivial hs', hR''⟩

end LiteCode.System
