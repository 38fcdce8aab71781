import LiteCode.Auth.RefreshToken

/-!
# What the store of revoked tokens keeps

Sequences of `revoke`, `is_revoked` and `purge_expired` on one `InMemoryRefreshTokenStore`, and
a call of `rotate_token_pair` on it with no other call in between (`rotateAlone`).

* the size never exceeds the cap;
* a second `revoke` of a `jti` evicts before it looks for the `jti`, and `emplace` leaves the
  expiry of an entry as it is: `SafeAgain` says when no other entry is lost and the `jti` stays
  revoked for as long as both calls asked;
* a rotation revokes the token before it signs the new pair: `Burns` says when a call that
  throws has revoked it.
-/

namespace LiteCode.RefreshToken

namespace Store

/-- The calls on the store, each with the time of the steady clock at which it ran. -/
inductive Op
  /-- `revoke`, with the entry it evicts at the cap. -/
  | revoke (now : Int) (victim jti : Bytes) (ttl : Int)
  | isRevoked (now : Int) (jti : Bytes)
  | purgeExpired (now : Int)
  deriving DecidableEq, Repr

/-- An entry that `revoke` may evict: if the store is at its cap, one that expires soonest. -/
def Evictable (maxEntries : Nat) (s : Store) (now : Int) (victim : Bytes) : Prop :=
  (s.purgeExpired now).AtCap maxEntries → (s.purgeExpired now).Soonest victim

instance (maxEntries : Nat) (s : Store) (now : Int) (victim : Bytes) :
    Decidable (s.Evictable maxEntries now victim) :=
  inferInstanceAs (Decidable (_ → _))

/-- One call. -/
def step (maxEntries : Nat) (s : Store) : Op → Option Store
  | .revoke now victim jti ttl =>
    if s.Evictable maxEntries now victim then some (s.revoke maxEntries now victim jti ttl)
    else none
  | .isRevoked now jti => some (s.isRevoked now jti).2
  | .purgeExpired now => some (s.purgeExpired now)

/-- The sequences of calls on a new store. -/
def calls (maxEntries : Nat) : System Store Op where
  init s := s.entries = []
  step := step maxEntries

/-! ## A second revocation -/

/-- Every entry but that of `jti` is kept. -/
def KeepsOthers (s s' : Store) (jti : Bytes) : Prop :=
  ∀ x ∈ s.entries, x.1 ≠ jti → x ∈ s'.entries

/-- Every entry but that of `jti` is kept, or has expired. -/
def KeepsLiveOthers (now : Int) (s s' : Store) (jti : Bytes) : Prop :=
  ∀ x ∈ s.entries, x.1 ≠ jti → x ∈ s'.entries ∨ x.2 ≤ now

/-- From `now` until `till`, `is_revoked` finds `jti`. -/
def RevokedUntil (s : Store) (now till : Int) (jti : Bytes) : Prop :=
  ∀ t, now ≤ t → t < till → (s.isRevoked t jti).1 = true

/-- When a `revoke` of a `jti` whose entry expires at `old` does no harm: it does nothing, or it
    evicts nothing and the old expiry has passed or is not before the new one, or it evicts the
    entry of `jti` itself and the new expiry is not before the old one. -/
def SafeAgain (maxEntries : Nat) (s : Store) (now : Int) (victim jti : Bytes) (ttl old : Int) :
    Prop :=
  ttl ≤ 0 ∨
  ¬ (s.purgeExpired now).AtCap maxEntries ∧ (old ≤ now ∨ now + ttl * second ≤ old) ∨
  (s.purgeExpired now).AtCap maxEntries ∧ victim = jti ∧ old ≤ now + ttl * second

instance (maxEntries : Nat) (s : Store) (now : Int) (victim jti : Bytes) (ttl old : Int) :
    Decidable (SafeAgain maxEntries s now victim jti ttl old) :=
  inferInstanceAs (Decidable (_ ∨ _))

variable {s s' : Store} {now : Int} {victim jti : Bytes} {ttl : Int} {maxEntries : Nat}

/-! ## The size -/

theorem length_filter_le (p : Bytes × Int → Bool) :
    (s.filter p).entries.length ≤ s.entries.length := List.length_filter_le _ _

theorem length_emplace_le {e : Int} :
    (s.emplace jti e).entries.length ≤ s.entries.length + 1 := by
  rw [emplace]
  split_ifs
  · exact Nat.le_succ _
  · simp

/-- The eviction makes room for one entry. -/
theorem length_erase_lt (h : s.Soonest victim) :
    (s.erase victim).entries.length < s.entries.length := by
  obtain ⟨x, hx, rfl, -⟩ := h
  exact List.length_filter_lt_length_iff_exists.2 ⟨x, hx, by simp⟩

theorem length_isRevoked_le : (s.isRevoked now jti).2.entries.length ≤ s.entries.length := by
  rw [isRevoked]
  split_ifs
  · exact Nat.le_refl _
  · split
    · exact Nat.le_refl _
    · split_ifs
      · exact length_filter_le _
      · exact Nat.le_refl _

theorem length_revoke_le (hm : 1 ≤ maxEntries) (hv : s.Evictable maxEntries now victim)
    (h : s.entries.length ≤ maxEntries) :
    (s.revoke maxEntries now victim jti ttl).entries.length ≤ maxEntries := by
  have hp : (s.purgeExpired now).entries.length ≤ s.entries.length := length_filter_le _
  simp only [revoke]
  split_ifs with _ _ hc
  · exact h
  · exact h
  · have hlt := length_erase_lt (hv hc)
    exact Nat.le_trans length_emplace_le (by omega)
  · have hlt : (s.purgeExpired now).entries.length < maxEntries :=
      Nat.lt_of_not_le fun hle => hc ⟨hm, hle⟩
    exact Nat.le_trans length_emplace_le hlt

/-! ## The entries -/

theorem find_eq_some_iff {e : Int} : s.find jti = some e ↔ (jti, e) ∈ s.entries := by
  refine ⟨find_eq_some, fun h => ?_⟩
  obtain ⟨e', he⟩ := find_isSome h rfl
  have := List.inj_on_of_nodup_map s.nodup (find_eq_some he) h rfl
  cases this
  exact he

/-- `is_revoked` says whether there is an entry that has not expired. -/
theorem isRevoked_iff :
    (s.isRevoked now jti).1 = true ↔ jti ≠ [] ∧ ∃ e, (jti, e) ∈ s.entries ∧ now < e := by
  rw [isRevoked]
  split_ifs with hj
  · simp_all
  · cases hf : s.find jti with
    | none =>
      refine iff_of_false Bool.false_ne_true ?_
      rintro ⟨-, e, he, -⟩
      rw [find_eq_some_iff.2 he] at hf
      cases hf
    | some e =>
      have hm := find_eq_some_iff.1 hf
      simp only
      split_ifs with hle
      · refine iff_of_false not_false ?_
        rintro ⟨-, e', he, hlt⟩
        rw [find_eq_some_iff.2 he] at hf
        cases hf
        exact absurd hlt (Int.not_lt.2 hle)
      · exact iff_of_true rfl ⟨by simpa using hj, e, hm, Int.not_le.1 hle⟩

/-- An entry makes its `jti` revoked until it expires, and no longer. -/
theorem revokedUntil_iff {e till : Int} (hj : jti ≠ []) (h : (jti, e) ∈ s.entries) :
    s.RevokedUntil now till jti ↔ till ≤ now ∨ till ≤ e := by
  have hr : ∀ t, (s.isRevoked t jti).1 = true ↔ t < e := by
    intro t
    refine isRevoked_iff.trans ⟨fun ⟨_, e', he, hlt⟩ => ?_, fun hlt => ⟨hj, e, h, hlt⟩⟩
    have := find_eq_some_iff.2 h ▸ find_eq_some_iff.2 he
    cases this
    exact hlt
  simp only [RevokedUntil, hr]
  constructor
  · intro hu
    by_contra hn
    have := hu (max now e) (Int.le_max_left _ _) (by omega)
    omega
  · intro h t hn ht
    omega

theorem mem_purgeExpired {x : Bytes × Int} :
    x ∈ (s.purgeExpired now).entries ↔ x ∈ s.entries ∧ now < x.2 :=
  List.mem_filter.trans (by rw [decide_eq_true_iff])

theorem mem_erase {x : Bytes × Int} :
    x ∈ (s.erase victim).entries ↔ x ∈ s.entries ∧ x.1 ≠ victim :=
  List.mem_filter.trans (by rw [bne_iff_ne])

theorem emplace_of_mem {e e' : Int} (h : (jti, e) ∈ s.entries) : s.emplace jti e' = s :=
  dif_pos (List.mem_map.2 ⟨_, h, rfl⟩)

theorem mem_emplace_of_notMem {x : Bytes × Int} {e : Int} (h : ∀ e, (jti, e) ∉ s.entries) :
    x ∈ (s.emplace jti e).entries ↔ x ∈ s.entries ∨ x = (jti, e) := by
  rw [emplace, dif_neg]
  · exact List.mem_append.trans (or_congr_right List.mem_singleton)
  · intro hm
    obtain ⟨⟨k, e'⟩, hx, rfl⟩ := List.mem_map.1 hm
    exact h e' hx

/-- No entry has the empty `jti`: `revoke` ignores it. -/
def Keyed (s : Store) : Prop := ∀ x ∈ s.entries, x.1 ≠ []

theorem Keyed.revoke (h : s.Keyed) : (s.revoke maxEntries now victim jti ttl).Keyed := by
  rcases eq_or_ne jti [] with rfl | hj
  · exact h
  · intro x hx
    rcases mem_revoke hx with hx | rfl
    · exact h x hx
    · exact hj

/-! ## What a second revocation does -/

theorem revoke_of_nonpos (ht : ttl ≤ 0) : s.revoke maxEntries now victim jti ttl = s := by
  rw [revoke, if_pos ht, ite_self]

theorem revoke_of_pos (hj : jti ≠ []) (ht : 0 < ttl) :
    s.revoke maxEntries now victim jti ttl =
      (if (s.purgeExpired now).AtCap maxEntries then (s.purgeExpired now).erase victim
        else s.purgeExpired now).emplace jti (now + ttl * second) := by
  rw [revoke, if_neg (by simpa using hj), if_neg (Int.not_le.2 ht)]

theorem lt_add_ttl (ht : 0 < ttl) : now < now + ttl * second := by
  have : 0 < ttl * (second : Int) := Int.mul_pos ht (by decide)
  omega

theorem keepsLiveOthers_emplace {t : Store} {e : Int}
    (h : ∀ x ∈ s.entries, x.1 ≠ jti → now < x.2 → x ∈ t.entries) :
    KeepsLiveOthers now s (t.emplace jti e) jti := by
  intro x hx hne
  rcases Int.lt_or_le now x.2 with hn | hn
  · exact .inl (subset_emplace _ (h x hx hne hn))
  · exact .inr hn

/-- A new entry counts until its expiry. -/
theorem revokedUntil_emplace {e till : Int} (hj : jti ≠ []) (h : ∀ e, (jti, e) ∉ s.entries) :
    RevokedUntil (s.emplace jti e) now till jti ↔ till ≤ now ∨ till ≤ e :=
  revokedUntil_iff hj ((mem_emplace_of_notMem h).2 (.inr rfl))

/-- At the cap: the entry of another token is evicted although it has not expired, and that of
    `jti` itself makes room for the new one. -/
theorem safeAgain_atCap {old new : Int} (hj : jti ≠ []) (hn : now < new)
    (hv : (s.purgeExpired now).Soonest victim) :
    KeepsLiveOthers now s (((s.purgeExpired now).erase victim).emplace jti new) jti ∧
        RevokedUntil (((s.purgeExpired now).erase victim).emplace jti new) now (max old new) jti ↔
      victim = jti ∧ old ≤ new := by
  by_cases hvj : victim = jti
  · subst hvj
    have hkeep : KeepsLiveOthers now s
        (((s.purgeExpired now).erase victim).emplace victim new) victim :=
      keepsLiveOthers_emplace fun x hx hne hx' =>
        mem_erase.2 ⟨mem_purgeExpired.2 ⟨hx, hx'⟩, hne⟩
    rw [revokedUntil_emplace hj fun e he => (mem_erase.1 he).2 rfl]
    refine ⟨fun ⟨_, hr⟩ => ⟨rfl, by omega⟩, fun ⟨_, hle⟩ => ⟨hkeep, by omega⟩⟩
  · refine iff_of_false (fun ⟨hkeep, _⟩ => ?_) fun hs => hvj hs.1
    obtain ⟨x, hx, rfl, -⟩ := hv
    obtain ⟨hxs, hxn⟩ := mem_purgeExpired.1 hx
    rcases hkeep x hxs hvj with hm | hle
    · rcases mem_emplace hm with hm | rfl
      · exact (mem_erase.1 hm).2 rfl
      · exact hvj rfl
    · omega

/-- Below the cap: an entry that has not expired stays as it is. -/
theorem safeAgain_belowCap {old new : Int} (hj : jti ≠ []) (hn : now < new)
    (h : (jti, old) ∈ s.entries) :
    KeepsLiveOthers now s ((s.purgeExpired now).emplace jti new) jti ∧
        RevokedUntil ((s.purgeExpired now).emplace jti new) now (max old new) jti ↔
      old ≤ now ∨ new ≤ old := by
  have hkeep : KeepsLiveOthers now s ((s.purgeExpired now).emplace jti new) jti :=
    keepsLiveOthers_emplace fun x hx _ hx' => mem_purgeExpired.2 ⟨hx, hx'⟩
  rcases Int.lt_or_le now old with ho | ho
  · have hp : (jti, old) ∈ (s.purgeExpired now).entries := mem_purgeExpired.2 ⟨h, ho⟩
    rw [emplace_of_mem hp] at hkeep ⊢
    rw [revokedUntil_iff hj hp]
    refine ⟨fun ⟨_, hr⟩ => by omega, fun hle => ⟨hkeep, by omega⟩⟩
  · rw [revokedUntil_emplace hj]
    · exact ⟨fun _ => .inl ho, fun _ => ⟨hkeep, by omega⟩⟩
    · intro e he
      obtain ⟨hm, hlt⟩ := mem_purgeExpired.1 he
      have hee := List.inj_on_of_nodup_map s.nodup hm h rfl
      cases hee
      exact absurd hlt (Int.not_lt.2 ho)

/-- When a second revocation loses no entry that has not expired, and keeps the `jti` revoked
    until the later expiry. -/
theorem safeAgain_iff (ttl : Int) {old : Int} (hk : s.Keyed)
    (hv : s.Evictable maxEntries now victim) (h : (jti, old) ∈ s.entries) :
    KeepsLiveOthers now s (s.revoke maxEntries now victim jti ttl) jti ∧
        RevokedUntil (s.revoke maxEntries now victim jti ttl) now
          (max old (now + ttl * second)) jti ↔
      SafeAgain maxEntries s now victim jti ttl old := by
  have hj : jti ≠ [] := hk _ h
  rcases Int.lt_or_le 0 ttl with ht | ht
  · rw [revoke_of_pos hj ht]
    simp only [SafeAgain, Int.not_le.2 ht, false_or]
    split_ifs with hc
    · simp only [hc, not_true, false_and, false_or, true_and]
      exact safeAgain_atCap hj (lt_add_ttl ht) (hv hc)
    · simp only [hc, not_false_eq_true, false_and, or_false, true_and]
      exact safeAgain_belowCap hj (lt_add_ttl ht) h
  · have hle : ttl * (second : Int) ≤ 0 := Int.mul_nonpos_of_nonpos_of_nonneg ht (by decide)
    rw [revoke_of_nonpos ht, revokedUntil_iff hj h]
    refine iff_of_true ⟨fun x hx _ => .inl hx, ?_⟩ (.inl ht)
    omega

/-- The entries that a revocation removes besides: those that have expired. -/
theorem keepsOthers_iff (hj : jti ≠ []) :
    KeepsOthers s (s.revoke maxEntries now victim jti ttl) jti ↔
      KeepsLiveOthers now s (s.revoke maxEntries now victim jti ttl) jti ∧
        (ttl ≤ 0 ∨ ∀ x ∈ s.entries, x.1 ≠ jti → now < x.2) := by
  rcases Int.lt_or_le 0 ttl with ht | ht
  · refine ⟨fun hk => ⟨fun x hx hne => .inl (hk x hx hne), .inr fun x hx hne => ?_⟩, ?_⟩
    · have hm := hk x hx hne
      rw [revoke_of_pos hj ht] at hm
      rcases mem_emplace hm with hm | rfl
      · split_ifs at hm
        · exact (mem_purgeExpired.1 (mem_erase.1 hm).1).2
        · exact (mem_purgeExpired.1 hm).2
      · exact absurd rfl hne
    · rintro ⟨hk, hl⟩ x hx hne
      have hn := hl.resolve_left (Int.not_le.2 ht) x hx hne
      exact (hk x hx hne).resolve_right (Int.not_le.2 hn)
  · rw [revoke_of_nonpos ht]
    exact iff_of_true (fun x hx _ => hx) ⟨fun x hx _ => .inl hx, .inl ht⟩

/-! ## Runs -/

theorem Keyed.step {a : Op} (h : s.Keyed) (hs : Store.step maxEntries s a = some s') :
    s'.Keyed := by
  cases a with
  | revoke now victim jti ttl =>
    rw [Store.step] at hs
    split_ifs at hs
    cases hs
    exact h.revoke
  | isRevoked now jti =>
    cases hs
    exact fun x hx => h x (mem_isRevoked hx)
  | purgeExpired now =>
    cases hs
    exact fun x hx => h x (mem_purgeExpired.1 hx).1

theorem length_step_le {a : Op} (hm : 1 ≤ maxEntries) (h : s.entries.length ≤ maxEntries)
    (hs : Store.step maxEntries s a = some s') : s'.entries.length ≤ maxEntries := by
  cases a with
  | revoke now victim jti ttl =>
    rw [Store.step] at hs
    split_ifs at hs with hv
    cases hs
    exact length_revoke_le hm hv h
  | isRevoked now jti =>
    cases hs
    exact Nat.le_trans length_isRevoked_le h
  | purgeExpired now =>
    cases hs
    exact Nat.le_trans (length_filter_le _) h

theorem keyed_of_reach (h : (calls maxEntries).Reach System.Always s) : s.Keyed := by
  refine h.invariant (fun s hs => ?_) fun t a t' ht _ hs => ht.step hs
  simp [Keyed, show s.entries = [] from hs]

/-- The size never exceeds the cap. -/
theorem length_le_of_reach (hm : 1 ≤ maxEntries)
    (h : (calls maxEntries).Reach System.Always s) : s.entries.length ≤ maxEntries := by
  refine h.invariant (P := fun s => s.entries.length ≤ maxEntries) (fun s hs => ?_)
    fun t a t' ht _ hs => length_step_le hm ht hs
  simp [show s.entries = [] from hs]

end Store

/-! ## A rotation alone -/

/-- The environment of one `rotate_token_pair` call: the time that passes before each of its
    steps, the entry evicted at the cap, and the outcome of the signing. -/
structure Course where
  toLookup : Nat
  toTime : Nat
  toRevoke : Nat
  toSign : Nat
  victim : Bytes
  jti : Except Bytes Bytes

/-- What the look-up of a verified token answers. -/
def Course.revoked (m : Course) (p : Setting) (s : State) (c : Claims) : Bool :=
  (s.store.isRevoked ((s.now + m.toLookup : Nat) + p.offset) c.jti).1

/-- The steps of a `rotate_token_pair` call that nothing interrupts. -/
def Course.actions (m : Course) (p : Setting) (s : State) (tok : Option Claims) (args : PairArgs)
    (why : Bytes) : List Action :=
  let i := s.calls.length
  .rotate tok args why ::
    match rotateTokenPair s tok args why with
    | .verified c =>
      .tick m.toLookup :: .lookup i ::
        if m.revoked p s c then []
        else [.tick m.toTime, .time i, .tick m.toRevoke, .blacklist i m.victim, .tick m.toSign,
          .sign i m.jti]
    | _ => []

/-- The state after the call. -/
def rotateAlone (p : Setting) (s : State) (tok : Option Claims) (args : PairArgs) (why : Bytes)
    (m : Course) : Option State :=
  (system p).run s (m.actions p s tok args why)

/-- The call threw. -/
def Threw (s s' : State) : Prop :=
  ∃ args e, s'.calls = s.calls ++ [.rotate args (.failed e)]

/-- The store is as it was, except for entries that have expired at the time `now`. -/
def SameLive (now : Int) (s s' : Store) : Prop :=
  (∀ x ∈ s'.entries, x ∈ s.entries) ∧ ∀ x ∈ s.entries, x ∈ s'.entries ∨ x.2 ≤ now

/-- The arguments that `rotate_token_pair` and `issue_token_pair` accept. -/
def PairArgs.Accepted (args : PairArgs) : Prop :=
  1 ≤ args.accessTtlSeconds ∧ args.accessTtlSeconds ≤ args.refreshTtlSeconds ∧
    args.username ≠ [] ∧ args.role ≠ []

instance (args : PairArgs) : Decidable args.Accepted := inferInstanceAs (Decidable (_ ∧ _))

/-- A rotation that loses the session: the token is accepted and was not revoked, it has a second
    or more to live when the clock is read, and then the signing fails. -/
def Burns (p : Setting) (s : State) (tok : Option Claims) (args : PairArgs) (m : Course) : Prop :=
  ∃ c, tok = some c ∧ args.Accepted ∧ verify s c ∧ m.revoked p s c = false ∧ c.jti ≠ [] ∧
    0 < remainingSeconds c (s.now + m.toLookup + m.toTime) ∧
    (c.userId = [] ∨ ∃ what, m.jti = .error what)

/-- The state in which the last call is a rotation at `pc`. -/
def State.rotating (s : State) (now : Nat) (store : Store) (args : PairArgs) (pc : Rotate) :
    State :=
  { s with now, store, calls := s.calls ++ [.rotate args pc] }

variable {p : Setting} {s s' : State} {tok : Option Claims} {args : PairArgs} {why : Bytes}
  {m : Course} {now : Nat} {store : Store} {c : Claims}

theorem rotateTokenPair_cases (s : State) (tok : Option Claims) (args : PairArgs) (why : Bytes) :
    (∃ c, rotateTokenPair s tok args why = .verified c ∧ tok = some c ∧ args.Accepted ∧
      verify s c) ∨
    ((∃ e, rotateTokenPair s tok args why = .failed e) ∧
      ∀ c, tok = some c → args.Accepted → ¬ verify s c) := by
  cases tok with
  | none =>
    refine .inr ⟨?_, nofun⟩
    simp only [rotateTokenPair]
    split_ifs <;> exact ⟨_, rfl⟩
  | some c =>
    simp only [rotateTokenPair, List.isEmpty_iff]
    by_cases h : args.Accepted ∧ verify s c
    · obtain ⟨⟨ha, hr, hu, ho⟩, hv⟩ := h
      refine .inl ⟨c, ?_, rfl, ⟨ha, hr, hu, ho⟩, hv⟩
      rw [if_neg (by omega), if_neg (by omega), if_neg hu, if_neg ho, if_pos hv]
    · refine .inr ⟨?_, fun c' hc ha hv => ?_⟩
      · split_ifs with ha hr hu ho hv
        · exact ⟨_, rfl⟩
        · exact ⟨_, rfl⟩
        · exact ⟨_, rfl⟩
        · exact ⟨_, rfl⟩
        · exact absurd ⟨⟨by omega, by omega, hu, ho⟩, hv⟩ h
        · exact ⟨_, rfl⟩
      · cases hc
        exact h ⟨ha, hv⟩

/-! ### The steps of the call -/

theorem getElem?_rotating (pc : Rotate) :
    (s.rotating now store args pc).calls[s.calls.length]? = some (.rotate args pc) :=
  List.getElem?_concat_length

theorem set_rotating (pc pc' : Rotate) :
    (s.rotating now store args pc).calls.set s.calls.length (.rotate args pc') =
      s.calls ++ [.rotate args pc'] := by
  simp [State.rotating]

theorem lookup_rotating (p : Setting) (s : State) (now : Nat) (store : Store) (args : PairArgs)
    (c : Claims) :
    lookup p (s.rotating now store args (.verified c)) s.calls.length =
      some (s.rotating now (store.isRevoked (now + p.offset) c.jti).2 args
        (if (store.isRevoked (now + p.offset) c.jti).1 then .failed (revokedFailure c)
          else .unrevoked c)) := by
  simp only [lookup, getElem?_rotating, set_rotating]
  rfl

theorem time_rotating (s : State) (now : Nat) (store : Store) (args : PairArgs) (c : Claims) :
    time (s.rotating now store args (.unrevoked c)) s.calls.length =
      some (s.rotating now store args (.timed c now)) := by
  simp only [time, getElem?_rotating, set_rotating]
  rfl

theorem blacklist_rotating (now : Nat) {t : Nat} {victim : Bytes}
    (h : blacklist p (s.rotating now store args (.timed c t)) s.calls.length victim = some s') :
    s' = s.rotating now (store.revoke p.maxEntries (now + p.offset) victim c.jti
      (remainingSeconds c t)) args (.signing c) := by
  simp only [blacklist, getElem?_rotating, Call.revoking, Call.afterRevoke] at h
  obtain ⟨_, hc, h⟩ := Option.bind_eq_some_iff.1 h
  cases hc
  obtain ⟨_, hc, h⟩ := Option.bind_eq_some_iff.1 h
  cases hc
  simp only at h
  split_ifs at h
  cases h
  simp only [set_rotating]
  rfl

/-- The signing of the new pair fails exactly if the user or the signature does. -/
theorem issueTokenPair_of_accepted {userId : Bytes} {jti : Except Bytes Bytes}
    (h : args.Accepted) :
    (∃ e, issueTokenPair now userId args jti = .error e) ↔
      userId = [] ∨ ∃ what, jti = .error what := by
  obtain ⟨ha, hr, hu, ho⟩ := h
  simp only [issueTokenPair, List.isEmpty_iff]
  rw [if_neg (by omega), if_neg (by omega)]
  split_ifs with hi
  · exact iff_of_true ⟨_, rfl⟩ (.inl hi)
  · cases jti with
    | error what => exact iff_of_true ⟨_, rfl⟩ (.inr ⟨_, rfl⟩)
    | ok jti => exact iff_of_false nofun (not_or.2 ⟨hi, nofun⟩)

theorem sign_rotating {jti : Except Bytes Bytes}
    (h : sign (s.rotating now store args (.signing c)) s.calls.length jti = some s') :
    (∃ e, issueTokenPair now c.userId args jti = .error e ∧
      s' = s.rotating now store args (.failed e)) ∨
    ∃ new, issueTokenPair now c.userId args jti = .ok new ∧
      s' = { s.rotating now store args (.rotated c new) with signed := s.signed ++ [new] } := by
  simp only [sign, getElem?_rotating, set_rotating] at h
  split at h
  · rename_i e he
    cases h
    exact .inl ⟨e, he, rfl⟩
  · rename_i new hn
    cases h
    exact .inr ⟨new, hn, rfl⟩

/-- The call of a token that is not accepted. -/
theorem rotateAlone_refused {e : Failure} (h : rotateTokenPair s tok args why = .failed e)
    (hr : rotateAlone p s tok args why m = some s') :
    s' = s.rotating s.now s.store args (.failed e) := by
  simp only [rotateAlone, Course.actions, h, System.run, system, step] at hr
  cases hr
  rfl

/-- The call of a token that was revoked before. -/
theorem rotateAlone_revoked (h : rotateTokenPair s tok args why = .verified c)
    (hv : m.revoked p s c = true) (hr : rotateAlone p s tok args why m = some s') :
    s' = s.rotating (s.now + m.toLookup)
      (s.store.isRevoked ((s.now + m.toLookup : Nat) + p.offset) c.jti).2 args
      (.failed (revokedFailure c)) := by
  have hl := lookup_rotating p s (s.now + m.toLookup) s.store args c
  rw [Course.revoked] at hv
  rw [hv, if_pos rfl] at hl
  simp only [rotateAlone, Course.actions, h, Course.revoked, hv, if_true, System.run, system,
    step, Option.bind_some] at hr
  change ((lookup p (s.rotating (s.now + m.toLookup) s.store args (.verified c))
    s.calls.length).bind fun t => some t) = some s' at hr
  rw [hl] at hr
  cases hr
  rfl

/-- The call of an accepted token that was not revoked. -/
theorem rotateAlone_unrevoked (h : rotateTokenPair s tok args why = .verified c)
    (hv : m.revoked p s c = false) (hr : rotateAlone p s tok args why m = some s') :
    sign (s.rotating (s.now + m.toLookup + m.toTime + m.toRevoke + m.toSign)
      ((s.store.isRevoked ((s.now + m.toLookup : Nat) + p.offset) c.jti).2.revoke p.maxEntries
        ((s.now + m.toLookup + m.toTime + m.toRevoke : Nat) + p.offset) m.victim c.jti
        (remainingSeconds c (s.now + m.toLookup + m.toTime))) args (.signing c))
      s.calls.length m.jti = some s' := by
  have hl := lookup_rotating p s (s.now + m.toLookup) s.store args c
  rw [Course.revoked] at hv
  rw [hv, if_neg nofun] at hl
  simp only [rotateAlone, Course.actions, h, Course.revoked, hv, System.run, system,
    step, Option.bind_some] at hr
  change ((lookup p (s.rotating (s.now + m.toLookup) s.store args (.verified c))
    s.calls.length).bind _) = some s' at hr
  rw [hl] at hr
  simp only [Option.bind_some] at hr
  -- the clock is read, the token revoked and the pair signed, in turn
  obtain ⟨_, ht, hr⟩ := Option.bind_eq_some_iff.1 hr
  cases ht
  obtain ⟨_, ht, hr⟩ := Option.bind_eq_some_iff.1 hr
  cases (time_rotating s (s.now + m.toLookup + m.toTime) _ args c).symm.trans ht
  obtain ⟨_, ht, hr⟩ := Option.bind_eq_some_iff.1 hr
  cases ht
  obtain ⟨t, ht, hr⟩ := Option.bind_eq_some_iff.1 hr
  have hb := blacklist_rotating (s := s)
    (s.now + m.toLookup + m.toTime + m.toRevoke) (c := c) ht
  subst hb
  obtain ⟨_, ht, hr⟩ := Option.bind_eq_some_iff.1 hr
  cases ht
  obtain ⟨_, ht, hr⟩ := Option.bind_eq_some_iff.1 hr
  cases hr
  simp only [step] at ht
  split_ifs at ht
  exact ht

/-! ### The store after the call -/

theorem Store.sameLive_refl {now : Int} {s : Store} : SameLive now s s :=
  ⟨fun _ => id, fun _ => .inl⟩

theorem Store.sameLive_isRevoked {now till : Int} {s : Store} {jti : Bytes} (h : now ≤ till) :
    SameLive till s (s.isRevoked now jti).2 := by
  refine ⟨fun x => mem_isRevoked, fun x hx => ?_⟩
  rcases Int.lt_or_le now x.2 with hlt | hle
  · exact .inl (keeps_isRevoked x hx hlt)
  · exact .inr (Int.le_trans hle h)

/-- A `jti` that was not revoked gets a new entry. -/
theorem Store.exists_new {checked now till : Int} {s : Store} {jti victim : Bytes} {ttl : Int}
    {maxEntries : Nat} (hv : (s.isRevoked checked jti).1 = false) (hj : jti ≠ []) (ht : 0 < ttl)
    (hn : checked ≤ now) :
    ¬ SameLive till s ((s.isRevoked checked jti).2.revoke maxEntries now victim jti ttl) := by
  have hlt : now < now + ttl * second := lt_add_ttl ht
  have hold : ∀ e, (jti, e) ∈ s.entries → e ≤ checked := by
    intro e he
    by_contra hne
    rw [isRevoked_iff.2 ⟨hj, e, he, Int.not_le.1 hne⟩] at hv
    cases hv
  intro hs
  refine absurd (hold (now + ttl * second) (hs.1 _ ?_)) (by omega)
  rw [revoke_of_pos hj ht]
  refine (mem_emplace_of_notMem fun e he => ?_).2 (.inr rfl)
  have hp : (jti, e) ∈ ((s.isRevoked checked jti).2.purgeExpired now).entries := by
    split_ifs at he
    · exact (mem_erase.1 he).1
    · exact he
  obtain ⟨hm, hne⟩ := mem_purgeExpired.1 hp
  exact absurd (hold e (mem_isRevoked hm)) (by omega)

/-- The store is as it was if the `revoke` has nothing to do, and only then. -/
theorem Store.sameLive_revoke_iff {checked now till : Int} {s : Store} {jti victim : Bytes}
    {ttl : Int} {maxEntries : Nat} (hv : (s.isRevoked checked jti).1 = false) (hn : checked ≤ now)
    (htill : checked ≤ till) :
    SameLive till s ((s.isRevoked checked jti).2.revoke maxEntries now victim jti ttl) ↔
      ¬ (jti ≠ [] ∧ 0 < ttl) := by
  constructor
  · rintro hs ⟨hj, ht⟩
    exact exists_new hv hj ht hn hs
  · intro hnot
    have hsame : SameLive till s (s.isRevoked checked jti).2 := sameLive_isRevoked htill
    rcases eq_or_ne jti [] with rfl | hj
    · exact hsame
    · rw [revoke_of_nonpos (Int.not_lt.1 fun ht => hnot ⟨hj, ht⟩)]
      exact hsame

/-- A token that is accepted and was not revoked. -/
theorem burns_iff (ha : args.Accepted) (hv : verify s c) (hr : m.revoked p s c = false) :
    Burns p s (some c) args m ↔ (c.jti ≠ [] ∧
      0 < remainingSeconds c (s.now + m.toLookup + m.toTime)) ∧
      (c.userId = [] ∨ ∃ what, m.jti = .error what) := by
  constructor
  · rintro ⟨_, hc, -, -, -, hj, ht, hf⟩
    cases hc
    exact ⟨⟨hj, ht⟩, hf⟩
  · exact fun ⟨⟨hj, ht⟩, hf⟩ => ⟨c, rfl, ha, hv, hr, hj, ht, hf⟩

theorem threw_iff {pc : Rotate} (h : s'.calls = s.calls ++ [.rotate args pc]) :
    Threw s s' ↔ ∃ e, pc = .failed e := by
  constructor
  · rintro ⟨args', e, he⟩
    have he := List.append_cancel_left (h.symm.trans he)
    cases he
    exact ⟨e, rfl⟩
  · rintro ⟨e, rfl⟩
    exact ⟨args, e, h⟩

/-- A rotation that throws leaves the store as it was, unless it burns the session. -/
theorem sameLive_iff (h : rotateAlone p s tok args why m = some s') :
    (Threw s s' → SameLive (p.steady s') s.store s'.store) ↔ ¬ Burns p s tok args m := by
  rcases rotateTokenPair_cases s tok args why with
    ⟨c, hc, rfl, ha, hv⟩ | ⟨⟨e, he⟩, hn⟩
  · cases hr : m.revoked p s c with
    | true =>
      have hs := rotateAlone_revoked hc hr h
      subst hs
      refine iff_of_true (fun _ => Store.sameLive_isRevoked (Int.le_refl _)) ?_
      rintro ⟨_, hc', -, -, hr', -⟩
      cases hc'
      rw [hr] at hr'
      cases hr'
    | false =>
      rw [burns_iff ha hv hr]
      -- The old token is revoked before the new pair is signed, and the signing may still fail.
      rcases sign_rotating (rotateAlone_unrevoked hc hr h) with ⟨e, he, rfl⟩ | ⟨new, hn, rfl⟩
      · have hf := (issueTokenPair_of_accepted ha).1 ⟨e, he⟩
        rw [forall_prop_of_true ((threw_iff rfl).2 ⟨e, rfl⟩), and_iff_left hf]
        refine Store.sameLive_revoke_iff hr ?_ ?_
        · push_cast
          omega
        · simp only [Setting.steady, State.rotating]
          push_cast
          omega
      · have hf : ¬ (c.userId = [] ∨ ∃ what, m.jti = .error what) := by
          intro hf
          obtain ⟨e, he⟩ := (issueTokenPair_of_accepted ha).2 hf
          rw [hn] at he
          cases he
        refine iff_of_true (fun ht => ?_) fun hb => hf hb.2
        obtain ⟨e, he⟩ := (threw_iff rfl).1 ht
        cases he
  · have hs := rotateAlone_refused he h
    subst hs
    refine iff_of_true (fun _ => Store.sameLive_refl) ?_
    rintro ⟨c, hc, ha, hv, -⟩
    exact hn c hc ha hv

/-! ## The integrity of the store -/

/-- In every state of every run: the size is within the cap; a `revoke` of a `jti` that is there
    loses no other live entry and keeps the `jti` revoked until the later expiry exactly if
    `SafeAgain` (and removes no other entry at all exactly if also none has expired); and a
    rotation that throws leaves the store as it was, but for expired entries, unless `Burns`. -/
theorem store_integrity {maxEntries : Nat} {s : Store} (hm : 1 ≤ maxEntries)
    (h : (Store.calls maxEntries).Reach System.Always s) :
    s.entries.length ≤ maxEntries ∧
    (∀ now victim jti ttl old s', (jti, old) ∈ s.entries →
      s.step maxEntries (.revoke now victim jti ttl) = some s' →
      (s.KeepsLiveOthers now s' jti ∧ s'.RevokedUntil now (max old (now + ttl * second)) jti ↔
        s.SafeAgain maxEntries now victim jti ttl old) ∧
      (s.KeepsOthers s' jti ∧ s'.RevokedUntil now (max old (now + ttl * second)) jti ↔
        s.SafeAgain maxEntries now victim jti ttl old ∧
          (ttl ≤ 0 ∨ ∀ x ∈ s.entries, x.1 ≠ jti → now < x.2))) ∧
    ∀ (p : Setting) t tok args why m t', p.maxEntries = maxEntries → t.store = s →
      rotateAlone p t tok args why m = some t' →
      ((Threw t t' → SameLive (p.steady t') s t'.store) ↔ ¬ Burns p t tok args m) := by
  have hk := Store.keyed_of_reach h
  refine ⟨Store.length_le_of_reach hm h, fun now victim jti ttl old s' hold hs => ?_, ?_⟩
  · rw [Store.step] at hs
    split_ifs at hs with hv
    cases hs
    have hsafe := Store.safeAgain_iff ttl hk hv hold
    refine ⟨hsafe, ?_⟩
    rw [Store.keepsOthers_iff (hk _ hold), ← hsafe]
    exact and_right_comm
  · rintro p t tok args why m t' - rfl ht
    exact sameLive_iff ht

/-- Two revoked tokens, in a store for two. -/
def twoRevoked : Store where
  entries := [(bytes "a", 1000 * second), (bytes "b", 2000 * second)]
  nodup := by decide

theorem reach_twoRevoked : (Store.calls 2).Reach System.Always twoRevoked :=
  System.reach_of_run
    (l := [.revoke 0 [] (bytes "a") 1000, .revoke second [] (bytes "b") 1999])
    (.init (show (Store.calls 2).init ⟨[], List.nodup_nil⟩ from rfl)) (by decide +kernel)

/-- A later revocation of the token that expires soonest is safe. -/
theorem store_integrity_twoRevoked :
    ∃ s', twoRevoked.step 2 (.revoke (2 * second) (bytes "a") (bytes "a") 3000) = some s' ∧
      twoRevoked.KeepsOthers s' (bytes "a") ∧
      s'.RevokedUntil (2 * second) (3002 * second) (bytes "a") := by
  have hs : twoRevoked.step 2 (.revoke (2 * second) (bytes "a") (bytes "a") 3000) =
      some (twoRevoked.revoke 2 (2 * second) (bytes "a") (bytes "a") 3000) := by decide +kernel
  have h := (store_integrity (by decide) reach_twoRevoked).2.1 _ _ _ _ (1000 * second) _
    (by decide +kernel) hs
  exact ⟨_, hs, h.2.2 (by decide +kernel)⟩

/-- A second revocation of one token evicts another one, which is accepted again. -/
theorem other_unrevoked :
    (bytes "b", (2000 * second : Int)) ∈ twoRevoked.entries ∧
      (twoRevoked.isRevoked (2 * second) (bytes "a")).1 = true ∧
      ∃ s', twoRevoked.step 2 (.revoke (2 * second) (bytes "a") (bytes "b") 1998) = some s' ∧
        (s'.isRevoked (2 * second) (bytes "a")).1 = false ∧
        ¬ twoRevoked.KeepsOthers s' (bytes "b") := by
  refine ⟨by decide +kernel, by decide +kernel,
    twoRevoked.revoke 2 (2 * second) (bytes "a") (bytes "b") 1998, by decide +kernel,
    by decide +kernel, fun hk => ?_⟩
  have := hk (bytes "a", 1000 * second) (by decide +kernel) (by decide +kernel)
  revert this
  decide +kernel

end LiteCode.RefreshToken
