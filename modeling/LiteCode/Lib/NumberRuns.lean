import Mathlib.Order.Bounds.Basic

/-!
# Runs of consecutive numbers

A list of numbers has runs, intervals whose numbers are all in it. A new number above all others
makes one run longer, or begins one.

* `runEnding`: the length of the run that ends with a number;
* `HasRun`: there is a run of this length;
* `isGreatest_concat`: the longest run after a number was added.
-/

namespace LiteCode

/-- The length of the run of consecutive numbers of `l` that ends with `d`. -/
def runEnding (l : List Nat) : Nat → Nat
  | 0 => if 0 ∈ l then 1 else 0
  | d + 1 => if d + 1 ∈ l then runEnding l d + 1 else 0

/-- There is a run of `m` consecutive numbers. -/
def HasRun (l : List Nat) (m : Nat) : Prop := ∃ a, ∀ i < m, a + i ∈ l

variable {l l' : List Nat} {d m n : Nat}

theorem runEnding_of_not_mem (h : d ∉ l) : runEnding l d = 0 := by
  cases d <;> exact if_neg h

theorem runEnding_succ (h : d + 1 ∈ l) : runEnding l (d + 1) = runEnding l d + 1 := if_pos h

theorem runEnding_pos (h : d ∈ l) : 0 < runEnding l d := by
  cases d with
  | zero => rw [runEnding, if_pos h]; exact Nat.one_pos
  | succ d => rw [runEnding_succ h]; exact Nat.succ_pos _

/-- The numbers up to `d` decide. -/
theorem runEnding_congr (h : ∀ x ≤ d, x ∈ l ↔ x ∈ l') :
    runEnding l d = runEnding l' d := by
  induction d with
  | zero => simp only [runEnding, h 0 (le_refl 0)]
  | succ d ih =>
    simp only [runEnding, h (d + 1) (le_refl _), ih fun x hx => h x (Nat.le_succ_of_le hx)]

/-- A run that ends with `d` is at most this long. -/
theorem le_runEnding {a : Nat} (h : ∀ i < m, a + i ∈ l) (hd : d + 1 = a + m) :
    m ≤ runEnding l d := by
  induction m generalizing d with
  | zero => exact Nat.zero_le _
  | succ m ih =>
    have hmem : d ∈ l := by
      have := h m (Nat.lt_succ_self m)
      rwa [show a + m = d by omega] at this
    cases d with
    | zero =>
      rw [runEnding, if_pos hmem]
      omega
    | succ d =>
      rw [runEnding_succ hmem]
      exact Nat.succ_le_succ (ih (fun i hi => h i (Nat.lt_succ_of_lt hi)) (by omega))

/-- The run that ends with `d`. -/
theorem hasRun_runEnding (l : List Nat) (d : Nat) :
    ∃ a, a + runEnding l d = d + 1 ∧ ∀ i < runEnding l d, a + i ∈ l := by
  induction d with
  | zero =>
    by_cases h : 0 ∈ l
    · refine ⟨0, by rw [runEnding, if_pos h], fun i hi => ?_⟩
      rw [runEnding, if_pos h] at hi
      rwa [show 0 + i = 0 by omega]
    · refine ⟨1, by rw [runEnding_of_not_mem h], fun i hi => ?_⟩
      rw [runEnding_of_not_mem h] at hi
      omega
  | succ d ih =>
    by_cases h : d + 1 ∈ l
    · obtain ⟨a, ha, hrun⟩ := ih
      refine ⟨a, by rw [runEnding_succ h]; omega, fun i hi => ?_⟩
      rw [runEnding_succ h] at hi
      rcases Nat.lt_or_ge i (runEnding l d) with hlt | hge
      · exact hrun i hlt
      · rwa [show a + i = d + 1 by omega]
    · refine ⟨d + 2, by rw [runEnding_of_not_mem h], fun i hi => ?_⟩
      rw [runEnding_of_not_mem h] at hi
      omega

/-- With a new last number, the longest run is the one before or the one that ends there. -/
theorem isGreatest_concat (hlt : ∀ x ∈ l, x < d) (h : IsGreatest {m | HasRun l m} n) :
    IsGreatest {m | HasRun (l ++ [d]) m} (max n (runEnding (l ++ [d]) d)) := by
  constructor
  · rcases le_total (runEnding (l ++ [d]) d) n with hle | hle
    · rw [max_eq_left hle]
      obtain ⟨a, ha⟩ := h.1
      exact ⟨a, fun i hi => List.mem_append_left _ (ha i hi)⟩
    · rw [max_eq_right hle]
      obtain ⟨a, -, ha⟩ := hasRun_runEnding (l ++ [d]) d
      exact ⟨a, ha⟩
  · rintro m ⟨a, ha⟩
    by_cases hend : ∃ i < m, a + i = d
    · -- the run contains the new number, which is the last one
      obtain ⟨i, hi, hid⟩ := hend
      have hlast : d + 1 = a + m := by
        by_contra hne
        have := ha (i + 1) (by omega)
        rw [List.mem_append, List.mem_singleton] at this
        rcases this with hmem | hmem
        · have := hlt _ hmem
          omega
        · omega
      exact le_trans (le_runEnding ha hlast) (le_max_right _ _)
    · refine le_trans (h.2 ⟨a, fun i hi => ?_⟩) (le_max_left _ _)
      rcases List.mem_append.1 (ha i hi) with hmem | hmem
      · exact hmem
      · exact absurd ⟨i, hi, List.mem_singleton.1 hmem⟩ hend

end LiteCode
