import LiteCode.Lib.Bytes

/-!
# UTF-8

Well-formed UTF-8 in the strict sense (no overlong form, no surrogate, nothing above U+10FFFF), as
the language of a machine that reads one byte at a time: between two characters, or inside one,
owing continuation bytes of which the next one has a range of its own.

* `Utf8.step`, `Utf8.run`: the machine; `Utf8.WellFormed`: it ends between two characters;
* `wellFormed_append_iff`: a text that is cut before the first byte of a character;
* `encode`: the bytes of a code point; `ofString`: those of a literal.
-/

namespace LiteCode.Utf8

/-- Where the machine stands: the number of continuation bytes owed, and the least and the
    greatest value of the next one. -/
structure State where
  owed : Nat
  lo : UInt8
  hi : UInt8
  deriving DecidableEq, Repr

/-- Between two characters. -/
def start : State := ⟨0, 0x80, 0xBF⟩

/-- The state after the first byte of a character. -/
def lead (b : UInt8) : Option State :=
  if b < 0x80 then some start
  else if b < 0xC2 then none
  else if b < 0xE0 then some ⟨1, 0x80, 0xBF⟩
  else if b = 0xE0 then some ⟨2, 0xA0, 0xBF⟩
  else if b = 0xED then some ⟨2, 0x80, 0x9F⟩
  else if b < 0xF0 then some ⟨2, 0x80, 0xBF⟩
  else if b = 0xF0 then some ⟨3, 0x90, 0xBF⟩
  else if b < 0xF4 then some ⟨3, 0x80, 0xBF⟩
  else if b = 0xF4 then some ⟨3, 0x80, 0x8F⟩
  else none

/-- The state after one more byte, `none` when it cannot stand there. -/
def step (q : State) (b : UInt8) : Option State :=
  match q.owed with
  | 0 => lead b
  | n + 1 => if q.lo ≤ b ∧ b ≤ q.hi then some ⟨n, 0x80, 0xBF⟩ else none

/-- The state after a string of bytes. -/
def run : State → Bytes → Option State
  | q, [] => some q
  | q, b :: l => (step q b).bind fun q' => run q' l

/-- The string is well-formed UTF-8. -/
def WellFormed (l : Bytes) : Prop := run start l = some start

instance (l : Bytes) : Decidable (WellFormed l) := inferInstanceAs (Decidable (_ = _))

/-- An ASCII byte is a character. -/
theorem step_start_of_lt {b : UInt8} (h : b < 0x80) : step start b = some start := by
  simp [step, start, lead, h]

/-- Inside a character there is no ASCII byte: the bounds of a continuation byte exclude it. -/
theorem step_of_owed {q : State} {b : UInt8} (hq : 0 < q.owed) (hlo : 0x80 ≤ q.lo) (h : b < 0x80) :
    step q b = none := by
  obtain ⟨n, hn⟩ : ∃ n, q.owed = n + 1 := ⟨q.owed - 1, by omega⟩
  rw [step, hn]
  exact if_neg fun hb => by grind

/-- The states of the machine: between two characters, or owing bytes that are not ASCII. -/
def State.Good (q : State) : Prop := q = start ∨ 0 < q.owed ∧ 0x80 ≤ q.lo

theorem good_start : start.Good := .inl rfl

/-- The states after the first byte of a character. -/
theorem mem_of_lead {b : UInt8} {q : State} (h : lead b = some q) :
    q ∈ [start, ⟨1, 0x80, 0xBF⟩, ⟨2, 0xA0, 0xBF⟩, ⟨2, 0x80, 0x9F⟩, ⟨2, 0x80, 0xBF⟩,
      ⟨3, 0x90, 0xBF⟩, ⟨3, 0x80, 0xBF⟩, ⟨3, 0x80, 0x8F⟩] := by
  unfold lead at h
  grind

theorem good_of_lead {b : UInt8} {q : State} (h : lead b = some q) : q.Good ∧ q.hi ≤ 0xBF := by
  have hq := mem_of_lead h
  simp only [List.mem_cons, List.not_mem_nil, or_false] at hq
  rcases hq with rfl | rfl | rfl | rfl | rfl | rfl | rfl | rfl <;> simp [State.Good, start]

/-- After any byte that can stand there. -/
theorem good_of_step {q q' : State} {b : UInt8} (h : step q b = some q') : q'.Good := by
  unfold Utf8.step at h
  split at h
  · exact (good_of_lead h).1
  · next n hn =>
    split_ifs at h
    cases h
    rcases Nat.eq_zero_or_pos n with rfl | hn'
    · exact .inl rfl
    · exact .inr ⟨hn', by simp⟩

/-- A text in ASCII. -/
theorem wellFormed_of_lt {l : Bytes} (h : ∀ b ∈ l, b < 0x80) : WellFormed l := by
  induction l with
  | nil => rfl
  | cons b l ih =>
    rw [WellFormed, run, step_start_of_lt (h b List.mem_cons_self), Option.bind_some]
    exact ih fun b hb => h b (List.mem_cons_of_mem _ hb)

theorem run_append (q : State) (a s : Bytes) :
    run q (a ++ s) = (run q a).bind fun q => run q s := by
  induction a generalizing q with
  | nil => rfl
  | cons b a ih =>
    rw [List.cons_append, run, run]
    cases step q b with
    | none => rfl
    | some q' => exact ih q'

theorem WellFormed.append_iff {a s : Bytes} (ha : WellFormed a) :
    WellFormed (a ++ s) ↔ WellFormed s := by
  rw [WellFormed, run_append, show run start a = some start from ha]
  rfl

/-- A continuation byte is at most `0xBF`. -/
theorem hi_le_of_step {q q' : State} {b : UInt8} (h : step q b = some q') : q'.hi ≤ 0xBF := by
  unfold Utf8.step at h
  split at h
  · exact (good_of_lead h).2
  · split_ifs at h
    cases h
    exact UInt8.le_refl 0xBF

/-- The machine stands between two characters, or owes bytes from `0x80` to `0xBF`. -/
theorem good_of_run {q : State} {a : Bytes} (h : run start a = some q) :
    q.Good ∧ q.hi ≤ 0xBF := by
  have hrun : ∀ q₀ : State, q₀.Good ∧ q₀.hi ≤ 0xBF → run q₀ a = some q → q.Good ∧ q.hi ≤ 0xBF := by
    clear h
    induction a with
    | nil =>
      rintro q₀ h₀ ⟨⟩
      exact h₀
    | cons b a ih =>
      intro q₀ _ h
      obtain ⟨q', hq', h⟩ := Option.bind_eq_some_iff.1 h
      exact ih q' ⟨good_of_step hq', hi_le_of_step hq'⟩ h
  exact hrun start ⟨good_start, by decide⟩ h

/-- The continuation bytes that are owed. -/
theorem run_continuation {l : Bytes} (hl : ∀ b ∈ l, 0x80 ≤ b ∧ b ≤ 0xBF) :
    run ⟨l.length, 0x80, 0xBF⟩ l = some start := by
  induction l with
  | nil => rfl
  | cons b l ih =>
    have hstep : step ⟨(b :: l).length, 0x80, 0xBF⟩ b = some ⟨l.length, 0x80, 0xBF⟩ :=
      if_pos (hl b List.mem_cons_self)
    rw [run, hstep, Option.bind_some]
    exact ih fun b hb => hl b (List.mem_cons_of_mem _ hb)

/-- The bytes that are owed, the first of which has a range of its own. -/
theorem run_of_owed {q : State} {b : UInt8} {l : Bytes} (hq : q.owed = l.length + 1)
    (hl : ∀ b ∈ l, 0x80 ≤ b ∧ b ≤ 0xBF) :
    run q (b :: l) = if q.lo ≤ b ∧ b ≤ q.hi then some start else none := by
  rw [run, step, hq]
  dsimp only
  split_ifs
  · exact run_continuation hl
  · rfl

/-- Where bytes are owed, a text goes on with as many continuation bytes. -/
theorem continuation_of_run {q : State} {l : Bytes} (hlo : 0x80 ≤ q.lo) (hhi : q.hi ≤ 0xBF)
    (h : run q l = some start) :
    q.owed ≤ l.length ∧ ∀ b ∈ l.take q.owed, 0x80 ≤ b ∧ b ≤ 0xBF := by
  induction l generalizing q with
  | nil =>
    cases h
    exact ⟨Nat.le_refl 0, List.forall_mem_nil _⟩
  | cons b l ih =>
    cases hq : q.owed with
    | zero => exact ⟨Nat.zero_le _, List.forall_mem_nil _⟩
    | succ n =>
      obtain ⟨q', hstep, h⟩ := Option.bind_eq_some_iff.1 h
      rw [step, hq] at hstep
      obtain ⟨hb, hq'⟩ := Option.ite_none_right_eq_some.1 hstep
      obtain rfl := Option.some.inj hq'
      obtain ⟨hlen, hl⟩ := ih (UInt8.le_refl 0x80) (UInt8.le_refl 0xBF) h
      refine ⟨Nat.succ_le_succ hlen, ?_⟩
      rw [List.take_succ_cons, List.forall_mem_cons]
      exact ⟨⟨UInt8.le_trans hlo hb.1, UInt8.le_trans hb.2 hhi⟩, hl⟩

/-- A text that goes on with a byte that is no continuation byte is well-formed exactly if both
    parts are. -/
theorem wellFormed_append_iff {a s : Bytes} (hs : ∀ b ∈ s.head?, b < 0x80 ∨ 0xBF < b) :
    WellFormed (a ++ s) ↔ WellFormed a ∧ WellFormed s := by
  constructor
  · intro h
    rw [WellFormed, run_append] at h
    obtain ⟨q, hq, h⟩ := Option.bind_eq_some_iff.1 h
    obtain ⟨hgood, hhi⟩ := good_of_run hq
    rcases hgood with rfl | ⟨howed, hlo⟩
    · exact ⟨hq, h⟩
    · -- a byte is owed, and the next one is none
      cases s with
      | nil =>
        rw [run, Option.some.injEq] at h
        subst h
        exact absurd howed (by decide)
      | cons b s =>
        have hb := hs b rfl
        obtain ⟨q', hstep, -⟩ := Option.bind_eq_some_iff.1 h
        obtain ⟨n, hn⟩ : ∃ n, q.owed = n + 1 := ⟨q.owed - 1, by omega⟩
        rw [step, hn] at hstep
        have hrange := (Option.ite_none_right_eq_some.1 hstep).1
        exfalso
        grind
  · rintro ⟨ha, hs⟩
    exact ha.append_iff.2 hs

/-- The same, for a text whose first byte is known. -/
theorem wellFormed_append_iff_of_head {a s : Bytes} {b : UInt8} (h : s.head? = some b)
    (hb : b < 0x80 ∨ 0xBF < b) : WellFormed (a ++ s) ↔ WellFormed a ∧ WellFormed s := by
  refine wellFormed_append_iff fun c hc => ?_
  obtain rfl := Option.some.inj (h.symm.trans hc)
  exact hb

/-- The UTF-8 form of a code point. -/
def encode (c : Nat) : Bytes :=
  if c < 0x80 then [UInt8.ofNat c]
  else if c < 0x800 then [UInt8.ofNat (0xC0 + c / 64), UInt8.ofNat (0x80 + c % 64)]
  else if c < 0x10000 then
    [UInt8.ofNat (0xE0 + c / 4096), UInt8.ofNat (0x80 + c / 64 % 64), UInt8.ofNat (0x80 + c % 64)]
  else
    [UInt8.ofNat (0xF0 + c / 262144), UInt8.ofNat (0x80 + c / 4096 % 64),
      UInt8.ofNat (0x80 + c / 64 % 64), UInt8.ofNat (0x80 + c % 64)]

/-- The UTF-8 form of a literal. -/
def ofString (s : String) : Bytes := s.toList.flatMap fun c => encode c.toNat

end LiteCode.Utf8
