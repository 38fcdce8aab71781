import LiteCode.Judge.Script

/-!
# The verdict of the case loop

The loop over the test cases should print one line per case, in order: cases that are accepted,
then at most one that is not, then skipped ones; the verdict is that of the one that is not
accepted. `Verdicts` says this of the printed statuses.

The loop does so unless it is disturbed (`caseLoop_orderly_iff`):

* the hard timeout is checked before anything else and breaks the loop, also when a verdict is
  there already, so it must not strike before the last case, nor after a failed one;
* a special judge that rejects an output by its exit status ends the whole script.

The verdict `ac` means that every case was run and accepted (`caseLoop_ac`, `judgeSh_ac`).
-/

namespace LiteCode.Judge

/-! ## What the body decides -/

/-- The judge types with a comparator. -/
def comparators : List Bytes :=
  [bytes "exact", bytes "ignore_trailing", bytes "float_eps", bytes "ignore_case",
    bytes "ignore_all_whitespace"]

/-- The program exits normally, within the output limit. -/
def runsNormally (σ : Setup) (r : CaseRun) : Bool :=
  decide ((r.out.length : Int) ≤ σ.outputLimitBytes) && r.rc == 0

/-- The case is accepted: by its comparator, or by a compiled special judge that exits with
    zero. -/
def passes (σ : Setup) (c : TestCase × CaseRun) : Bool :=
  runsNormally σ c.2 &&
  if c.1.jt ∈ comparators then c.2.accept
  else c.1.jt == bytes "special" && σ.spj == .ready &&
    match c.2.spj with
    | .exit rc _ => rc == 0
    | .unreadable _ => false

/-- The compiled special judge is asked, and exits with another status than zero. -/
def spjRejects (σ : Setup) (c : TestCase × CaseRun) : Bool :=
  runsNormally σ c.2 && c.1.jt == bytes "special" && σ.spj == .ready &&
    match c.2.spj with
    | .exit rc _ => rc != 0
    | .unreadable _ => false

/-- The call of the special judge: the script ends if it exits with another status than zero. -/
theorem spjRc_run (r : SpjRun) :
    (spjRc r).run true = match r with
      | .unreadable _ => .ok (2, true)
      | .exit 0 _ => .ok (0, true)
      | .exit rc _ => .error rc := by
  match r with
  | .unreadable _ => rfl
  | .exit 0 _ => rfl
  | .exit (rc + 1) _ => rfl

/-- What the body of the loop makes of a case. -/
inductive Judged (σ : Setup) (c : TestCase × CaseRun) : Except Nat CaseOutcome → Prop
  /-- The script ends. -/
  | rejects (rc : Nat) : spjRejects σ c → Judged σ c (.error rc)
  /-- The case is accepted. -/
  | accepts (o : CaseOutcome) : passes σ c → spjRejects σ c = false → o.status = .ac →
      Judged σ c (.ok o)
  /-- The case fails. -/
  | fails (o : CaseOutcome) : passes σ c = false → spjRejects σ c = false → o.status ≠ .ac →
      o.status ≠ .skipped → Judged σ c (.ok o)

variable {σ : Setup} {tc : TestCase} {r : CaseRun}

theorem judged_compared {out : Bytes} {v : Verdict} (hr : runsNormally σ r)
    (hjt : tc.jt ∈ comparators) (hv : v ≠ .ac ∧ v ≠ .skipped) :
    Judged σ (tc, r) (.ok (compared tc r out v)) := by
  have hne : tc.jt ≠ bytes "special" := fun h => by
    rw [h] at hjt
    revert hjt
    decide
  have hrej : spjRejects σ (tc, r) = false := by simp [spjRejects, hne]
  have hp : passes σ (tc, r) = r.accept := by simp [passes, hr, hjt]
  cases ha : r.accept with
  | true => exact .accepts _ (hp.trans ha) hrej (by simp [compared, CaseOutcome.full, ha])
  | false =>
    have hs : (compared tc r out v).status = v := by simp [compared, CaseOutcome.full, ha]
    exact .fails _ (hp.trans ha) hrej (hs.trans_ne hv.1) (hs.trans_ne hv.2)

/-- A case of type `special`. -/
theorem judged_special {out : Bytes} (hr : runsNormally σ r) (hjt : tc.jt = bytes "special") :
    Judged σ (tc, r) (match σ.spj with
      | .failed => .ok ⟨.se, some spjErrDefault, .spjCompileFailed, none, none, none, none⟩
      | .absent => .ok (.full tc r out .wa none .noSpecialJudge)
      | .ready => do
        let (rc, _) ← (spjRc r.spj).run true
        return specialOutcome tc r out rc) := by
  have hnc : bytes "special" ∉ comparators := by decide
  cases hs : σ.spj with
  | absent =>
    exact .fails _ (by simp [passes, hjt, hnc, hs]) (by simp [spjRejects, hs])
      (by simp [CaseOutcome.full])
      (by simp [CaseOutcome.full])
  | failed =>
    exact .fails _ (by simp [passes, hjt, hnc, hs]) (by simp [spjRejects, hs]) (by simp) (by simp)
  | ready =>
    simp only [spjRc_run]
    match hspj : r.spj with
    | .unreadable _ =>
      exact .fails _ (by simp [passes, hjt, hnc, hspj]) (by simp [spjRejects, hspj])
        (by simp [specialOutcome, CaseOutcome.raw]) (by simp [specialOutcome, CaseOutcome.raw])
    | .exit 0 _ =>
      exact .accepts _ (by simp [passes, hr, hjt, hnc, hs, hspj]) (by simp [spjRejects, hspj])
        (by simp [specialOutcome, CaseOutcome.full])
    | .exit (rc + 1) _ => exact .rejects _ (by simp [spjRejects, hr, hjt, hs, hspj])

theorem compareCase_judged (out : Bytes) (hr : runsNormally σ r) :
    Judged σ (tc, r) (compareCase σ tc r out) := by
  unfold compareCase
  split_ifs with h₁ h₂ h₃ h₄ h₅ h₆
  · exact judged_compared hr (by simp [h₁, comparators]) (by decide)
  · exact judged_compared hr (by simp [h₂, comparators]) (by decide)
  · exact judged_compared hr (by simp [h₃, comparators]) (by decide)
  · exact judged_compared hr (by simp [h₄, comparators]) (by decide)
  · exact judged_compared hr (by simp [h₅, comparators]) (by decide)
  · exact judged_special hr h₆
  · have hnc : tc.jt ∉ comparators := by simp [comparators, h₁, h₂, h₃, h₄, h₅]
    exact .fails _ (by simp [passes, hnc, h₆]) (by simp [spjRejects, h₆])
      (by simp [CaseOutcome.full])
      (by simp [CaseOutcome.full])

/-- A program that does not run normally fails its case. -/
theorem judged_raw {out : Bytes} {v : Verdict} {error : Bytes} {info : Info}
    (hr : runsNormally σ r = false) (hv : v ≠ .ac ∧ v ≠ .skipped) :
    Judged σ (tc, r) (.ok (.raw r out v error info)) :=
  .fails _ (by simp [passes, hr]) (by simp [spjRejects, hr]) hv.1 hv.2

theorem judgeCase_judged (σ : Setup) (tc : TestCase) (r : CaseRun) :
    Judged σ (tc, r) (judgeCase σ tc r) := by
  unfold judgeCase
  split_ifs with hout
  · exact judged_raw (by simp [runsNormally]; omega) (by decide)
  · split
    · next h =>
      exact compareCase_judged _ (by simp [runsNormally, h]; omega)
    · next h => exact judged_raw (by simp [runsNormally, h]) (by decide)
    · next h => exact judged_raw (by simp [runsNormally, h]) (by decide)
    · next h _ _ => exact judged_raw (by simpa [runsNormally] using fun _ => h) (by decide)

/-! ## Statuses -/

/-- The statuses from the index `i` on, the final status and the failed index: accepted cases,
    then at most one other, which decides, then skipped ones. -/
inductive Verdicts : Nat → List Verdict → Verdict → Option Nat → Prop
  | done (i : Nat) : Verdicts i [] .ac none
  | ac {i : Nat} {l : List Verdict} {v : Verdict} {k : Option Nat} :
      Verdicts (i + 1) l v k → Verdicts i (.ac :: l) v k
  | fail {i : Nat} {v : Verdict} {l : List Verdict} : v ≠ .ac → v ≠ .skipped →
      (∀ w ∈ l, w = .skipped) → Verdicts i (v :: l) v (some i)

theorem verdicts_ac_iff {i : Nat} {l : List Verdict} {v : Verdict} {k : Option Nat} :
    Verdicts i (.ac :: l) v k ↔ Verdicts (i + 1) l v k := by
  constructor
  · intro h
    cases h with
    | ac h => exact h
    | fail h _ _ => exact absurd rfl h
  · exact .ac

/-- After a failure the verdict stands, and all else is skipped. -/
theorem verdicts_fail_iff {i : Nat} {l : List Verdict} {w v : Verdict} {k : Option Nat}
    (hw : w ≠ .ac ∧ w ≠ .skipped) :
    Verdicts i (w :: l) v k ↔ v = w ∧ k = some i ∧ ∀ u ∈ l, u = .skipped := by
  constructor
  · intro h
    cases h with
    | ac h => exact absurd rfl hw.1
    | fail _ _ h => exact ⟨rfl, rfl, h⟩
  · rintro ⟨rfl, rfl, h⟩
    exact .fail hw.1 hw.2 h

/-- The lines that the loop adds from the state `s` on, one per case, tell the verdict. -/
def OrderlyFrom (i n : Nat) (s : LoopState) (res : Except Nat LoopState) : Prop :=
  ∃ s' lines, res = .ok s' ∧ s'.cases = s.cases ++ lines ∧
    lines.map (·.index) = List.range' i n ∧
    Verdicts i (lines.map (·.status)) s'.finalStatus s'.failedCaseIndex

/-- The loop ends with one line per case, in order, and they tell the verdict. -/
def Orderly (n : Nat) (res : Except Nat LoopState) : Prop :=
  ∃ s, res = .ok s ∧ s.cases.map (·.index) = List.range n ∧
    Verdicts 0 (s.cases.map (·.status)) s.finalStatus s.failedCaseIndex

/-! ## Runs of the loop -/

@[simp]
theorem bareLine_index (i : Nat) (v : Verdict) : (bareLine i v).index = i := rfl

@[simp]
theorem bareLine_status (i : Nat) (v : Verdict) : (bareLine i v).status = v := rfl

variable {i : Nat} {s : LoopState} {l : List (TestCase × CaseRun)}

/-- Once a case has failed, the others are skipped, unless the hard timeout strikes. -/
theorem caseLoop_failed (σ : Setup) (i : Nat) (l : List (TestCase × CaseRun))
    (hs : s.finalStatus ≠ .ac) : ∃ s' lines,
      caseLoop σ i s l = .ok s' ∧ s'.cases = s.cases ++ lines ∧ s'.finalStatus ≠ .ac ∧
      ((∀ c ∈ l, σ.timedOut c.2 = false) → lines.map (·.index) = List.range' i l.length ∧
        (∀ c ∈ lines, c.status = .skipped) ∧ s'.finalStatus = s.finalStatus ∧
        s'.failedCaseIndex = s.failedCaseIndex) ∧
      ((∃ c ∈ l, σ.timedOut c.2) → ∃ c ∈ lines, c.status ≠ .skipped) := by
  induction l generalizing i s with
  | nil => exact ⟨s, [], by simp [caseLoop, hs]⟩
  | cons c l ih =>
    obtain ⟨tc, r⟩ := c
    rw [caseLoop]
    -- a timeout overwrites the verdict that is there, and its line is not a skipped one
    split_ifs with ht
    · refine ⟨_, [bareLine i .se], rfl, rfl, by simp, fun h => ?_, fun _ => ?_⟩
      · have := h _ List.mem_cons_self
        simp [ht] at this
      · exact ⟨_, List.mem_cons_self, by simp⟩
    · obtain ⟨s', lines, he, hc, hf, hno, hyes⟩ :=
        ih (i + 1) (s := { s with cases := s.cases ++ [bareLine i .skipped] }) hs
      refine ⟨s', bareLine i .skipped :: lines, he, by simp [hc], hf, fun h => ?_, fun h => ?_⟩
      · obtain ⟨h₁, h₂, h₃, h₄⟩ := hno fun c hc => h c (List.mem_cons_of_mem _ hc)
        exact ⟨by simp [h₁, List.range'_succ], by simpa using h₂, h₃, h₄⟩
      · have h : ∃ c ∈ l, σ.timedOut c.2 := by simpa [ht] using h
        obtain ⟨c, hc, hne⟩ := hyes h
        exact ⟨c, List.mem_cons_of_mem _ hc, hne⟩

/-- The loop is not disturbed. -/
structure Undisturbed (σ : Setup) (l : List (TestCase × CaseRun)) : Prop where
  /-- The hard timeout strikes at most before the last case, after accepted ones. -/
  timeout : ∀ pre c post, l = pre ++ c :: post → σ.timedOut c.2 → post = [] ∧ ∀ d ∈ pre, passes σ d
  /-- The first case that is not accepted is not one that the special judge rejects. -/
  spj : ∀ pre c post, l = pre ++ c :: post → (∀ d ∈ pre, passes σ d) → ¬σ.timedOut c.2 →
    ¬spjRejects σ c

theorem spjRejects_of_passes {c : TestCase × CaseRun} (h : passes σ c) :
    spjRejects σ c = false := by
  obtain ⟨tc, r⟩ := c
  by_cases hjt : tc.jt = bytes "special"
  · have hnc : bytes "special" ∉ comparators := by decide
    simp only [passes, hjt, hnc, if_false, Bool.and_eq_true] at h
    cases hspj : r.spj with
    | unreadable _ => simp [spjRejects, hspj]
    | exit rc _ =>
      have hrc : rc = 0 := by simpa [hspj] using h.2.2
      simp [spjRejects, hspj, hrc]
  · simp [spjRejects, hjt]

/-- A split of `c :: l` is at `c`, or it is a split of `l`. -/
theorem split_cons {α : Type} {c : α} {l : List α} {P : List α → α → List α → Prop} :
    (∀ pre d post, c :: l = pre ++ d :: post → P pre d post) ↔
      P [] c l ∧ ∀ pre d post, l = pre ++ d :: post → P (c :: pre) d post := by
  constructor
  · intro h
    exact ⟨h [] c l rfl, fun pre d post he => h (c :: pre) d post (by rw [he]; rfl)⟩
  · rintro ⟨hc, hl⟩ pre d post he
    cases pre with
    | nil =>
      cases he
      exact hc
    | cons e pre =>
      obtain ⟨rfl, rfl⟩ := List.cons.inj he
      exact hl pre d post rfl

/-- The disturbances of a run, by its first case. -/
theorem undisturbed_cons {c : TestCase × CaseRun} :
    Undisturbed σ (c :: l) ↔
      if σ.timedOut c.2 then l = []
      else if passes σ c then Undisturbed σ l
      else spjRejects σ c = false ∧ ∀ d ∈ l, σ.timedOut d.2 = false := by
  constructor
  · rintro ⟨htimeout, hspj⟩
    obtain ⟨htc, htl⟩ := split_cons.1 htimeout
    obtain ⟨hsc, hsl⟩ := split_cons.1 hspj
    split_ifs with ht hp
    · exact (htc ht).1
    · refine ⟨fun pre d post he hd => ?_, fun pre d post he hpre => ?_⟩
      · obtain ⟨h₁, h₂⟩ := htl pre d post he hd
        exact ⟨h₁, fun e he => h₂ e (List.mem_cons_of_mem _ he)⟩
      · exact hsl pre d post he (List.forall_mem_cons.2 ⟨hp, hpre⟩)
    · refine ⟨by simpa using hsc (by simp) ht, fun d hd => ?_⟩
      -- a timeout after `c` would find `c` accepted
      obtain ⟨pre, post, he⟩ := List.append_of_mem hd
      refine Bool.eq_false_iff.2 fun htd => hp ?_
      exact (htl pre d post he htd).2 c List.mem_cons_self
  · intro h
    split_ifs at h with ht hp
    · subst h
      refine ⟨split_cons.2 ⟨fun _ => ⟨rfl, by simp⟩, fun pre d post he => ?_⟩,
        split_cons.2 ⟨fun _ hnt => absurd ht hnt, fun pre d post he => ?_⟩⟩
      · exact absurd he.symm (by simp)
      · exact absurd he.symm (by simp)
    · refine ⟨split_cons.2 ⟨fun hd => absurd hd ht, fun pre d post he hd => ?_⟩,
        split_cons.2 ⟨fun _ _ => by simp [spjRejects_of_passes hp],
          fun pre d post he hpre hnt => ?_⟩⟩
      · obtain ⟨h₁, h₂⟩ := h.timeout pre d post he hd
        exact ⟨h₁, List.forall_mem_cons.2 ⟨hp, h₂⟩⟩
      · exact h.spj pre d post he (List.forall_mem_cons.1 hpre).2 hnt
    · refine ⟨split_cons.2 ⟨fun hd => absurd hd ht, fun pre d post he hd => ?_⟩,
        split_cons.2 ⟨fun _ _ => by simp [h.1], fun pre d post he hpre => ?_⟩⟩
      · simp [h.2 d (by simp [he])] at hd
      · exact absurd (hpre c List.mem_cons_self) hp

/-- The loop only adds case lines. -/
theorem prefix_caseLoop {s' : LoopState} (h : caseLoop σ i s l = .ok s') :
    s.cases <+: s'.cases := by
  induction l generalizing i s with
  | nil =>
    cases h
    exact List.prefix_rfl
  | cons c l ih =>
    obtain ⟨tc, r⟩ := c
    rw [caseLoop] at h
    split_ifs at h
    · cases h
      exact List.prefix_append _ _
    · exact (List.prefix_append _ _).trans (ih h)
    · cases hj : judgeCase σ tc r with
      | error rc => rw [hj] at h; cases h
      | ok o =>
        rw [hj] at h
        exact (List.prefix_append _ _).trans (ih h)

/-- The lines of a run, when the first case was run and gave the outcome `o`. -/
theorem orderlyFrom_commit {n : Nat} {r : CaseRun} {o : CaseOutcome} {res : Except Nat LoopState}
    (h : ∀ s', res = .ok s' → (s.commit i r o).cases <+: s'.cases) :
    OrderlyFrom i (n + 1) s res ↔ ∃ s' lines, res = .ok s' ∧
      s'.cases = (s.commit i r o).cases ++ lines ∧ lines.map (·.index) = List.range' (i + 1) n ∧
      Verdicts i (o.status :: lines.map (·.status)) s'.finalStatus s'.failedCaseIndex := by
  constructor
  · rintro ⟨s', lines, hres, hc, hi, hv⟩
    obtain ⟨lines', hl⟩ := h s' hres
    have hl' := hl
    rw [LoopState.commit, hc, List.append_assoc] at hl
    obtain rfl := List.append_cancel_left hl
    rw [List.singleton_append, List.map_cons, List.range'_succ, List.cons.injEq] at hi
    exact ⟨s', lines', hres, hl'.symm, hi.2, hv⟩
  · rintro ⟨s', lines, hres, hc, hi, hv⟩
    rw [LoopState.commit, List.append_assoc] at hc
    exact ⟨s', _, hres, hc, by simp [hi, List.range'_succ, CaseOutcome.line], hv⟩

/-- From a state without a failure, the loop goes on in order iff it is not disturbed. -/
theorem caseLoop_orderlyFrom (hs : s.finalStatus = .ac) (hk : s.failedCaseIndex = none) :
    OrderlyFrom i l.length s (caseLoop σ i s l) ↔ Undisturbed σ l := by
  induction l generalizing i s with
  | nil =>
    have hu : Undisturbed σ [] := ⟨by simp, by simp⟩
    refine iff_of_true ⟨s, [], rfl, by simp, rfl, ?_⟩ hu
    rw [hs, hk]
    exact .done i
  | cons c l ih =>
    obtain ⟨tc, r⟩ := c
    rw [undisturbed_cons, caseLoop]
    by_cases ht : σ.timedOut r
    · -- the timeout breaks the loop: only right before the last case
      rw [if_pos ht, if_pos ht]
      constructor
      · rintro ⟨s', lines, he, hc, hi, -⟩
        cases he
        obtain rfl : [bareLine i .se] = lines := List.append_cancel_left hc
        simpa using congrArg List.length hi
      · rintro rfl
        exact ⟨_, [bareLine i .se], rfl, rfl, rfl, .fail (by simp) (by simp) (by simp)⟩
    · rw [if_neg ht, if_neg ht, if_neg (not_not_intro hs)]
      have hj := judgeCase_judged σ tc r
      generalize judgeCase σ tc r = res at hj
      cases hj with
      | rejects rc h =>
        -- the script is gone, so there is no state to be in order
        have hp : passes σ (tc, r) ≠ true := fun hp => by simp [spjRejects_of_passes hp] at h
        rw [if_neg hp]
        refine iff_of_false ?_ fun hu => by simp [hu.1] at h
        rintro ⟨s', lines, he, -⟩
        cases he
      | accepts o hp _ ho =>
        rw [if_pos hp, ← ih (i := i + 1) (s := s.commit i r o) (by simp [LoopState.commit, ho, hs])
          (by simp [LoopState.commit, ho, hk])]
        refine (orderlyFrom_commit fun s' hs' => prefix_caseLoop hs').trans ?_
        simp only [ho, verdicts_ac_iff]
        rfl
      | fails o hp hrej ho ho' =>
        rw [if_neg (by simp [hp])]
        refine (orderlyFrom_commit fun s' hs' => prefix_caseLoop hs').trans ?_
        -- from here on the loop skips, and only a timeout can be in its way
        have hne : (s.commit i r o).finalStatus ≠ .ac := by simp [LoopState.commit, ho]
        obtain ⟨s', lines, he, hc, -, hno, hyes⟩ := caseLoop_failed σ (i + 1) l hne
        rw [he]
        simp only [verdicts_fail_iff ⟨ho, ho'⟩]
        constructor
        · rintro ⟨s'', lines', hs'', hc', -, -, -, hskip⟩
          cases hs''
          obtain rfl : lines = lines' := List.append_cancel_left (hc.symm.trans hc')
          refine ⟨hrej, fun d hd => Bool.eq_false_iff.2 fun htd => ?_⟩
          obtain ⟨c, hcl, hne⟩ := hyes ⟨d, hd, htd⟩
          exact hne (hskip _ (List.mem_map_of_mem hcl))
        · rintro ⟨-, hnt⟩
          obtain ⟨hi, hskip, hf, hfi⟩ := hno hnt
          refine ⟨s', lines, rfl, hc, hi, ?_, ?_, ?_⟩
          · simp [hf, LoopState.commit, ho]
          · simp [hfi, LoopState.commit, ho]
          · simpa using hskip

/-- The loop prints one line per case in order, a prefix of accepted ones, at most one other,
    which decides the verdict and the failed index, and skipped ones, exactly if it is not
    disturbed: the hard timeout strikes at most before the last case and after accepted ones only,
    and the first case that is not accepted is not one that the special judge rejects by its exit
    status. -/
theorem caseLoop_orderly_iff (σ : Setup) (l : List (TestCase × CaseRun)) :
    Orderly l.length (caseLoop σ 0 .init l) ↔ Undisturbed σ l := by
  rw [← caseLoop_orderlyFrom (i := 0) (s := .init) rfl rfl]
  constructor
  · rintro ⟨s, he, hi, hv⟩
    exact ⟨s, s.cases, he, rfl, by rw [hi, List.range_eq_range'], hv⟩
  · rintro ⟨s, lines, he, hc, hi, hv⟩
    have hc : s.cases = lines := hc
    exact ⟨s, he, by rw [hc, hi, List.range_eq_range'], hc ▸ hv⟩

/-- A program that prints nothing and exits normally at the time `now`, on a case that is compared
    exactly. -/
def quickCase (now : Nat) (accept : Bool) : TestCase × CaseRun :=
  (⟨bytes "1", bytes "1", bytes "exact", none, 0⟩,
    ⟨now, 0, [], [], 0, 0, 0, accept, .unreadable []⟩)

/-- A case whose special judge rejects the output with the exit status one. -/
def spjCase (now : Nat) : TestCase × CaseRun :=
  (⟨bytes "1", bytes "1", bytes "special", none, 0⟩,
    ⟨now, 0, [], [], 0, 0, 0, false, .exit 1 (bytes "no")⟩)

/-- A hard timeout of 30 seconds, and a special judge. -/
def quickSetup : Setup := ⟨1000, 30000, 1024, .ready, 0⟩

/-- The verdict `wa` of the first of three cases is overwritten by the hard timeout, and the third
    case gets no line; and an output that the special judge rejects ends the script. -/
theorem caseLoop_overwrites :
    (∃ s, caseLoop quickSetup 0 .init
        [quickCase 0 false, quickCase 31000 true, quickCase 31000 true] = .ok s ∧
      s.cases.map (·.status) = [.wa, .se] ∧ s.finalStatus = .se ∧ s.failedCaseIndex = some 1) ∧
    caseLoop quickSetup 0 .init [quickCase 0 true, spjCase 10] = .error 1 ∧
    ¬ Orderly 3 (caseLoop quickSetup 0 .init
      [quickCase 0 false, quickCase 31000 true, quickCase 31000 true]) ∧
    ¬ Orderly 2 (caseLoop quickSetup 0 .init [quickCase 0 true, spjCase 10]) := by
  have h₁ : ∃ s, caseLoop quickSetup 0 .init
        [quickCase 0 false, quickCase 31000 true, quickCase 31000 true] = .ok s ∧
      s.cases.map (·.status) = [.wa, .se] ∧ s.finalStatus = .se ∧ s.failedCaseIndex = some 1 :=
    ⟨_, rfl, by decide, by decide, by decide⟩
  have h₂ : caseLoop quickSetup 0 .init [quickCase 0 true, spjCase 10] = .error 1 := by rfl
  refine ⟨h₁, h₂, ?_, ?_⟩
  · obtain ⟨s, hs, hst, -⟩ := h₁
    rintro ⟨s', hs', hi, -⟩
    obtain rfl := Except.ok.inj (hs.symm.trans hs')
    have hlen := congrArg List.length hst
    have hlen' := congrArg List.length hi
    rw [List.length_map] at hlen hlen'
    rw [hlen] at hlen'
    cases hlen'
  · rintro ⟨s, hs, -⟩
    rw [h₂] at hs
    cases hs

/-! ## The verdict `ac` -/

/-- A loop that ends with the verdict `ac` has run every case, and every one was accepted. -/
theorem caseLoop_ac {s' : LoopState} (h : caseLoop σ i s l = .ok s') (hac : s'.finalStatus = .ac) :
    (∀ c ∈ l, passes σ c) ∧ ∃ lines, s'.cases = s.cases ++ lines ∧
      lines.map (·.index) = List.range' i l.length ∧ ∀ c ∈ lines, c.status = .ac := by
  induction l generalizing i s with
  | nil =>
    cases h
    exact ⟨by simp, [], by simp, rfl, by simp⟩
  | cons c l ih =>
    obtain ⟨tc, r⟩ := c
    -- a failure is never taken back, so the run must start without one
    by_cases hs : s.finalStatus = .ac
    · rw [caseLoop] at h
      split_ifs at h
      · cases h
        cases hac
      · exact absurd hs (by assumption)
      · have hj := judgeCase_judged σ tc r
        generalize judgeCase σ tc r = res at hj h
        cases hj with
        | rejects rc _ => cases h
        | accepts o hp _ ho =>
          obtain ⟨hl, lines, hc, hi, hst⟩ := ih h
          refine ⟨List.forall_mem_cons.2 ⟨hp, hl⟩, o.line i r :: lines, ?_, ?_, ?_⟩
          · rw [hc, LoopState.commit, List.append_assoc]
            rfl
          · simp [hi, List.range'_succ, CaseOutcome.line]
          · exact List.forall_mem_cons.2 ⟨ho, hst⟩
        | fails o _ _ ho _ =>
          have hne : (s.commit i r o).finalStatus ≠ .ac := by simp [LoopState.commit, ho]
          obtain ⟨s'', -, he, -, hf, -⟩ := caseLoop_failed σ (i + 1) l hne
          obtain rfl := Except.ok.inj (he.symm.trans h)
          exact absurd hac hf
    · obtain ⟨s'', -, he, -, hf, -⟩ := caseLoop_failed σ i ((tc, r) :: l) hs
      obtain rfl := Except.ok.inj (he.symm.trans h)
      exact absurd hac hf

theorem compileError_status {t : TaskFile} {c : Compile} {f : Final}
    (h : compileError t c = some f) : f.status ≠ .ac := by
  unfold compileError at h
  dsimp only at h
  split at h
  · split_ifs at h
    cases h
    simp [Final.bare]
  all_goals
    cases h
    simp [Final.bare]

/-- The results that the script prints: the index and the status of each case. -/
def Outcome.results : Outcome → List (Nat × Verdict)
  | .final f => f.cases.map fun c => (c.index, c.status)
  | _ => []

theorem judgeTask_ac {t : TaskFile} {env : Env} {spj : Spj} {f : Final}
    (h : judgeTask t env spj = .final f) (hac : f.status = .ac) :
    (judgeTask t env spj).results = (List.range t.testCases.length).map fun i => (i, .ac) := by
  rw [h]
  unfold judgeTask at h
  cases hc : compileError t env.compile with
  | some f' =>
    rw [hc] at h
    cases h
    exact absurd hac (compileError_status hc)
  | none =>
    simp only [hc] at h
    split at h
    · cases h
    · next s hs =>
      cases h
      obtain ⟨-, lines, hl, hi, hst⟩ := caseLoop_ac hs hac
      have hl : s.cases = lines := hl
      rw [List.length_mapIdx] at hi
      simp only [Outcome.results, hl]
      rw [List.range_eq_range', ← hi, List.map_map]
      exact List.map_congr_left fun c hc => by simp [hst c hc]

/-- A script that accepts a submission has run every case of its task, and each was accepted. -/
theorem judgeSh_ac {t : TaskFile} {env : Env} (h : (∃ sid, judgeSh (.task t) env = .noCases sid) ∨
    ∃ f, judgeSh (.task t) env = .final f ∧ f.status = .ac) :
    (judgeSh (.task t) env).results = (List.range t.testCases.length).map fun i => (i, .ac) := by
  unfold judgeSh at h ⊢
  dsimp only at h ⊢
  split_ifs at h ⊢ with h₁ h₂ h₃
  · simp at h
  · simp at h
  · rw [List.isEmpty_iff] at h₃
    simp [Outcome.results, h₃]
  · cases hp : (prepareSpj t env.spjCompile).run true with
    | error rc => simp [hp] at h
    | ok p =>
      simp only [hp] at h ⊢
      rcases h with ⟨sid, h⟩ | ⟨f, h, hac⟩
      · unfold judgeTask at h
        dsimp only at h
        split at h
        · cases h
        · split at h <;> cases h
      · exact judgeTask_ac h hac

end LiteCode.Judge
