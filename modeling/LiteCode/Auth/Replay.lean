import LiteCode.Auth.RefreshToken

/-!
# Replaying a refresh token

A refresh token is to be used once: the call that rotates or revokes it puts its `jti` on the
blacklist, for the rest of its lifetime. That rest is rounded down to whole seconds, and
`revoke_refresh_token` caps it: the entry may expire before the token, and from then on the token
is accepted again.

* `Covering`: the steps that leave no such gap;
* `Ledger`: what these steps keep, and `Ledger.step`;
* `replay_fails`: in every execution of such steps, no call that begins after the token was
  rotated or revoked gets past the look-up, at any instant up to the expiry of the token.
-/

namespace LiteCode.RefreshToken

/-- The claims that a call has verified. -/
def Call.claims : Call → Option Claims
  | .rotate _ (.verified c) => some c
  | .rotate _ (.unrevoked c) => some c
  | .rotate _ (.timed c _) => some c
  | .rotate _ (.signing c) => some c
  | .rotate _ (.rotated c _) => some c
  | .rotate _ (.failed _) => none
  | .revoke _ (.matched c) => some c
  | .revoke _ (.timed c _) => some c
  | .revoke _ (.ignored _) => none
  | .revoke _ (.revoked c _) => some c

/-- The token of a rotation that got past the look-up, up to its success. -/
def Call.passed : Call → Option Claims
  | .rotate _ (.unrevoked c) => some c
  | .rotate _ (.timed c _) => some c
  | .rotate _ (.signing c) => some c
  | .rotate _ (.rotated c _) => some c
  | _ => none

/-- The token that a call has put on the blacklist: a rotation that is about to sign or has
    succeeded, or a revocation that has. -/
def Call.retired : Call → Option Claims
  | .rotate _ (.signing c) => some c
  | .rotate _ (.rotated c _) => some c
  | .revoke _ (.revoked c _) => some c
  | _ => none

/-- The entry that the call is to make outlives the token. The lifetime of the entry is rounded
    down when the clock is read, at `t`, and counted when the store reads it, now. -/
def Call.Covers (s : State) : Call → Prop
  | .rotate _ (.timed c t) => t + (c.expiresAt - t) % second ≤ s.now
  | .revoke maxTtl (.timed c t) => t + (c.expiresAt - t) % second ≤ s.now ∧
      (0 < maxTtl → (c.expiresAt : Int) ≤ s.now + maxTtl * second)
  | _ => True

instance (s : State) : DecidablePred (Call.Covers s)
  | .rotate _ (.timed _ _) => inferInstanceAs (Decidable (_ ≤ _))
  | .revoke _ (.timed _ _) => inferInstanceAs (Decidable (_ ∧ _))
  | .rotate _ (.verified _) => isTrue trivial
  | .rotate _ (.unrevoked _) => isTrue trivial
  | .rotate _ (.signing _) => isTrue trivial
  | .rotate _ (.rotated _ _) => isTrue trivial
  | .rotate _ (.failed _) => isTrue trivial
  | .revoke _ (.matched _) => isTrue trivial
  | .revoke _ (.ignored _) => isTrue trivial
  | .revoke _ (.revoked _ _) => isTrue trivial

/-- The steps where each new entry outlives its token and the store is below its cap. -/
def Covering (p : Setting) (s : State) : Action → Prop
  | .blacklist i _ => ¬ (s.store.purgeExpired (p.steady s)).AtCap p.maxEntries ∧
      ∀ call ∈ s.calls[i]?, call.Covers s
  | _ => True

instance (p : Setting) (s : State) : (a : Action) → Decidable (Covering p s a)
  | .blacklist _ _ => inferInstanceAs (Decidable (_ ∧ _))
  | .tick _ => isTrue trivial
  | .issue _ _ _ => isTrue trivial
  | .rotate _ _ _ => isTrue trivial
  | .revoke _ _ _ _ => isTrue trivial
  | .lookup _ => isTrue trivial
  | .time _ => isTrue trivial
  | .sign _ _ => isTrue trivial
  | .purge => isTrue trivial

variable {p : Setting} {s s' : State} {a : Action} {c : Claims} {call : Call}

/-! ## The lifetime of an entry -/

/-- The rest of a lifetime is not negative. -/
theorem remainingSeconds_nonneg (c : Claims) (t : Nat) : 0 ≤ remainingSeconds c t :=
  Int.le_max_left 0 _

/-- In whole seconds the rest falls short of the end by less than one. -/
theorem le_remainingSeconds {t now : Nat} (h : t + (c.expiresAt - t) % second ≤ now) :
    (c.expiresAt : Int) ≤ now + remainingSeconds c t * second := by
  have hn := remainingSeconds_nonneg c t
  -- before the expiry the division is one of naturals; after it nothing is left to cover
  by_cases hle : t ≤ c.expiresAt
  · have hr : remainingSeconds c t = ((c.expiresAt - t) / second : Nat) := by
      rw [remainingSeconds, Int.tdiv_eq_ediv_of_nonneg (by omega)]
      simp only [second]
      omega
    rw [hr]
    simp only [second] at h ⊢
    omega
  · simp only [second] at h ⊢
    omega

/-- The lifetime of the new entry reaches the expiry of its token. -/
theorem Call.Covers.reaches {ttl : Int} (h : call.Covers s)
    (hr : call.revoking = some (c, ttl)) : (c.expiresAt : Int) ≤ s.now + ttl * second := by
  cases call with
  | rotate args pc =>
    cases pc with
    | timed c t =>
      cases hr
      exact le_remainingSeconds h
    | _ => cases hr
  | revoke maxTtl pc =>
    cases pc with
    | timed c t =>
      cases hr
      rw [cappedSeconds]
      split_ifs with hm
      · exact h.2 hm.1
      · exact le_remainingSeconds h.1
    | _ => cases hr

/-- A call revokes the token that it was given. -/
theorem Call.claims_of_revoking {ttl : Int} (hr : call.revoking = some (c, ttl)) :
    call.claims = some c ∧ call.afterRevoke.claims = some c ∧
      call.afterRevoke.retired = some c := by
  cases call with
  | rotate args pc =>
    cases pc with
    | timed c t =>
      cases hr
      exact ⟨rfl, rfl, rfl⟩
    | _ => cases hr
  | revoke maxTtl pc =>
    cases pc with
    | timed c t =>
      cases hr
      exact ⟨rfl, rfl, rfl⟩
    | _ => cases hr

theorem Call.claims_of_retired (h : call.retired = some c) : call.claims = some c := by
  cases call with
  | rotate args pc => cases pc <;> first | exact h | cases h
  | revoke maxTtl pc => cases pc <;> first | exact h | cases h

/-! ## What the steps keep -/

/-- The token cannot be used any more: it has expired, or it has an entry. -/
def Gone (s : State) (c : Claims) : Prop :=
  c.expiresAt ≤ s.now ∨ ∃ x ∈ s.store.entries, x.1 = c.jti

/-- A call in order: its token is signed, and gone if the call has retired it. -/
structure Call.Fine (s : State) (call : Call) : Prop where
  signed : ∀ c ∈ call.claims, c ∈ s.signed
  gone : ∀ c ∈ call.retired, Gone s c

/-- Each `jti` names one token, and each entry of the store is for a token and outlives it. -/
structure Ledger (p : Setting) (s : State) : Prop where
  jti_ne_nil : ∀ c ∈ s.signed, c.jti ≠ []
  jti_inj : ∀ c ∈ s.signed, ∀ c' ∈ s.signed, c.jti = c'.jti → c = c'
  covers : ∀ x ∈ s.store.entries, ∃ c ∈ s.signed, c.jti = x.1 ∧ c.expiresAt + p.offset ≤ x.2
  fine : ∀ call ∈ s.calls, call.Fine s

/-- The entry of a token stays for its lifetime. -/
theorem Ledger.le_of_mem (h : Ledger p s) (hc : c ∈ s.signed) {x : Bytes × Int}
    (hx : x ∈ s.store.entries) (hk : x.1 = c.jti) : c.expiresAt + p.offset ≤ x.2 := by
  obtain ⟨c', hc', hj, hle⟩ := h.covers x hx
  obtain rfl := h.jti_inj c' hc' c hc (hj.trans hk)
  exact hle

/-- A token that is gone stays so: its entry is removed only after the token has expired. -/
theorem Gone.keeps (h : Gone s c) (hl : Ledger p s) (hc : c ∈ s.signed)
    (hk : Store.Keeps (p.steady s) s.store s'.store) (hn : s.now ≤ s'.now) : Gone s' c := by
  rcases h with h | ⟨x, hx, hj⟩
  · exact .inl (Nat.le_trans h hn)
  · by_cases he : p.steady s < x.2
    · exact .inr ⟨x, hk x hx he, hj⟩
    · -- the entry has expired, and it outlives its token
      have hle := hl.le_of_mem hc hx hj
      rw [Setting.steady] at he
      exact .inl (by omega)

/-- A call stays fine while the store keeps its entries. -/
theorem Call.Fine.keeps (h : call.Fine s) (hl : Ledger p s)
    (hk : Store.Keeps (p.steady s) s.store s'.store) (hn : s.now ≤ s'.now)
    (hs : ∀ c ∈ s.signed, c ∈ s'.signed) : call.Fine s' where
  signed c hc := hs c (h.signed c hc)
  gone c hc := (h.gone c hc).keeps hl (h.signed c (Call.claims_of_retired hc)) hk hn

/-- What a step has to do to keep the ledger. -/
theorem Ledger.of_keeps (hl : Ledger p s) (hn : s.now ≤ s'.now)
    (hk : Store.Keeps (p.steady s) s.store s'.store)
    (hs : s'.signed = s.signed ∨ ∃ new, new.jti ≠ [] ∧ (∀ c ∈ s.signed, c.jti ≠ new.jti) ∧
      s'.signed = s.signed ++ [new])
    (he : ∀ x ∈ s'.store.entries, x ∈ s.store.entries ∨
      ∃ c ∈ s.signed, c.jti = x.1 ∧ c.expiresAt + p.offset ≤ x.2)
    (hc : ∀ call ∈ s'.calls, call ∈ s.calls ∨ call.Fine s') : Ledger p s' := by
  have hsub : ∀ c ∈ s.signed, c ∈ s'.signed := by
    intro c hc
    rcases hs with hs | ⟨new, -, -, hs⟩
    · exact hs ▸ hc
    · exact hs ▸ List.mem_append_left _ hc
  refine ⟨?_, ?_, fun x hx => ?_, fun call hm => ?_⟩
  · rcases hs with hs | ⟨new, hne, -, hs⟩
    · exact hs ▸ hl.jti_ne_nil
    · intro c hm
      rw [hs] at hm
      rcases List.mem_append.1 hm with hm | hm
      · exact hl.jti_ne_nil c hm
      · rwa [List.mem_singleton.1 hm]
  · rcases hs with hs | ⟨new, -, hf, hs⟩
    · exact hs ▸ hl.jti_inj
    · intro c hm c' hm' hj
      rw [hs, List.mem_append, List.mem_singleton] at hm hm'
      -- A new token has an identifier that none of the old ones has (`hf`).
      rcases hm with hm | rfl <;> rcases hm' with hm' | rfl
      · exact hl.jti_inj c hm c' hm' hj
      · exact absurd hj (hf c hm)
      · exact absurd hj.symm (hf c' hm')
      · rfl
  · obtain ⟨c, hm, hle⟩ : ∃ c ∈ s.signed, c.jti = x.1 ∧ c.expiresAt + p.offset ≤ x.2 :=
      (he x hx).elim (hl.covers x) id
    exact ⟨c, hsub c hm, hle⟩
  · rcases hc call hm with hm | hm
    · exact (hl.fine call hm).keeps hl hk hn hsub
    · exact hm

theorem mem_calls_set {calls : List Call} {i : Nat} {new : Call} (h : new.Fine s') :
    ∀ call ∈ calls.set i new, call ∈ calls ∨ call.Fine s' := by
  intro call hm
  rcases List.mem_or_eq_of_mem_set hm with hm | rfl
  · exact .inl hm
  · exact .inr h

/-- A call is fine after its first step. -/
theorem Call.Entered.fine (h : call.Entered s) (hs : s'.signed = s.signed) : call.Fine s' := by
  refine ⟨fun c hc => hs ▸ ?_, fun c hc => ?_⟩
  · cases call with
    | rotate args pc => cases pc <;> first | exact False.elim h | cases hc <;> exact h
    | revoke maxTtl pc => cases pc <;> first | exact False.elim h | cases hc <;> exact h
  · cases call with
    | rotate args pc => cases pc <;> first | exact False.elim h | cases hc
    | revoke maxTtl pc => cases pc <;> first | exact False.elim h | cases hc

/-- Time does not go back, the entries that have not expired stay, and so do the tokens. -/
theorem Step.keeps (hs : Step p s a s') (hg : Covering p s a) :
    s.now ≤ s'.now ∧ Store.Keeps (p.steady s) s.store s'.store ∧
      ∀ c ∈ s.signed, c ∈ s'.signed := by
  cases hs with
  | ticked d => exact ⟨Nat.le_add_right _ _, fun _ h _ => h, fun _ h => h⟩
  | issued => exact ⟨Nat.le_refl _, fun _ h _ => h, fun _ h => List.mem_append_left _ h⟩
  | found => exact ⟨Nat.le_refl _, Store.keeps_isRevoked, fun _ h => h⟩
  | passed => exact ⟨Nat.le_refl _, Store.keeps_isRevoked, fun _ h => h⟩
  | blacklisted => exact ⟨Nat.le_refl _, Store.keeps_revoke hg.1, fun _ h => h⟩
  | signed => exact ⟨Nat.le_refl _, fun _ h _ => h, fun _ h => List.mem_append_left _ h⟩
  | purged => exact ⟨Nat.le_refl _, Store.keeps_purgeExpired, fun _ h => h⟩
  | _ => exact ⟨Nat.le_refl _, fun _ h _ => h, fun _ h => h⟩

/-- Every step that covers the lifetime keeps the ledger. -/
theorem Ledger.step (hl : Ledger p s) (hg : Covering p s a) (hs : Step p s a s') :
    Ledger p s' := by
  obtain ⟨hn, hk, -⟩ := hs.keeps hg
  cases hs with
  | ticked d =>
    exact hl.of_keeps hn hk (.inl rfl) (fun _ => .inl) (fun _ => .inl)
  | unissued => exact hl
  | issued _ _ _ new hne hf =>
    exact hl.of_keeps hn hk (.inr ⟨new, hne, hf, rfl⟩) (fun _ => .inl) (fun _ => .inl)
  | called a call he =>
    refine hl.of_keeps hn hk (.inl rfl) (fun _ => .inl) ?_
    intro call' hm
    rcases List.mem_append.1 hm with hm | hm
    · exact .inl hm
    · rw [List.mem_singleton.1 hm]
      exact .inr (he.fine rfl)
  | found i args c hi =>
    exact hl.of_keeps hn hk (.inl rfl)
      (fun _ h => .inl (Store.mem_isRevoked h)) (mem_calls_set ⟨nofun, nofun⟩)
  | passed i args c hi =>
    have hf := (hl.fine _ (List.mem_of_getElem? hi)).signed
    exact hl.of_keeps hn hk (.inl rfl)
      (fun _ h => .inl (Store.mem_isRevoked h)) (mem_calls_set ⟨hf, nofun⟩)
  | timedRotate i args c hi =>
    have hf := (hl.fine _ (List.mem_of_getElem? hi)).signed
    exact hl.of_keeps hn hk (.inl rfl) (fun _ => .inl)
      (mem_calls_set ⟨hf, nofun⟩)
  | timedRevoke i maxTtl c hi =>
    have hf := (hl.fine _ (List.mem_of_getElem? hi)).signed
    exact hl.of_keeps hn hk (.inl rfl) (fun _ => .inl)
      (mem_calls_set ⟨hf, nofun⟩)
  | blacklisted i victim call c ttl hi hr =>
    -- the guard makes the new entry outlive the token; without an entry the token has expired
    obtain ⟨hc, hc', hrt⟩ := Call.claims_of_revoking hr
    have hm : c ∈ s.signed := (hl.fine _ (List.mem_of_getElem? hi)).signed c hc
    have hle := (hg.2 call hi).reaches hr
    refine hl.of_keeps hn hk (.inl rfl) (fun x hx => ?_)
      (mem_calls_set ⟨?_, ?_⟩)
    · refine (Store.mem_revoke hx).imp_right ?_
      rintro rfl
      refine ⟨c, hm, rfl, ?_⟩
      rw [Setting.steady]
      omega
    · intro c' h
      rw [hc'] at h
      cases h
      exact hm
    · intro c' h
      rw [hrt] at h
      cases h
      by_cases ht : 0 < ttl
      · exact .inr (Store.exists_revoke (hl.jti_ne_nil c hm) ht)
      · refine .inl ?_
        show c.expiresAt ≤ s.now
        simp only [second] at hle
        omega
  | signed i args c new jti hi hne hf =>
    have hfine := hl.fine _ (List.mem_of_getElem? hi)
    refine hl.of_keeps hn hk (.inr ⟨new, hne, hf, rfl⟩)
      (fun _ => .inl) (mem_calls_set ⟨fun c hc => ?_, hfine.gone⟩)
    exact List.mem_append_left _ (hfine.signed c hc)
  | unsigned i args c e jti hi =>
    exact hl.of_keeps hn hk (.inl rfl) (fun _ => .inl)
      (mem_calls_set ⟨nofun, nofun⟩)
  | purged =>
    exact hl.of_keeps hn hk (.inl rfl)
      (fun _ h => .inl (List.mem_filter.1 h).1) (fun _ => .inl)

theorem Ledger.init (h : (system p).init s) : Ledger p s := by
  obtain ⟨he, hs, hc⟩ := h
  constructor <;> simp [he, hs, hc]

/-- It holds in every state that is reached so. -/
theorem Ledger.of_reach (h : (system p).Reach (Covering p) s) : Ledger p s :=
  h.invariant (fun _ => Ledger.init) fun _ _ _ hl hg hs => hl.step hg (step_step hs)

/-- The look-up finds a token that is gone and has not expired. -/
theorem Ledger.isRevoked (hl : Ledger p s) (hc : c ∈ s.signed) (hg : Gone s c)
    (hn : s.now < c.expiresAt) : (s.store.isRevoked (p.steady s) c.jti).1 = true := by
  rcases hg with hg | ⟨x, hx, hk⟩
  · exact absurd hg (Nat.not_le.2 hn)
  · refine Store.isRevoked_of_mem (hl.jti_ne_nil c hc) hx hk fun y hy hk => ?_
    have hle := hl.le_of_mem hc hy hk
    rw [Setting.steady]
    omega

/-! ## Later calls -/

/-- No call from the `n`-th on got past the look-up with the token `c`. -/
def Unpassed (calls : List Call) (n : Nat) (c : Claims) : Prop :=
  ∀ i call, n ≤ i → calls[i]? = some call → call.passed ≠ some c

/-- A step of another token passes nothing. -/
theorem Unpassed.set {calls : List Call} {n i : Nat} {old new : Call} (h : Unpassed calls n c)
    (hi : calls[i]? = some old) (hp : new.passed = some c → old.passed = some c) :
    Unpassed (calls.set i new) n c := by
  intro j call hj hc hpc
  rw [List.getElem?_set] at hc
  split_ifs at hc with hij hlt
  · cases hc
    subst hij
    exact h i old hj hi (hp hpc)
  · exact h j call hj hc hpc

/-- No token is passed by the first step. -/
theorem Call.passed_of_entered (h : call.Entered s) : call.passed = none := by
  cases call with
  | rotate args pc => cases pc <;> first | rfl | exact False.elim h
  | revoke maxTtl pc => rfl

/-- None is passed by the revocation. -/
theorem Call.passed_afterRevoke (h : call.afterRevoke.passed = some c) : call.passed = some c := by
  cases call with
  | rotate args pc => cases pc <;> exact h
  | revoke maxTtl pc => cases pc <;> cases h

/-- As long as a token that is gone has not expired, no new call gets past the look-up with it. -/
theorem unpassed_step {n : Nat} (hl : Ledger p s) (hg : Gone s c)
    (hn : s.now < c.expiresAt) (h : Unpassed s.calls n c) (hs : Step p s a s') :
    Unpassed s'.calls n c := by
  cases hs with
  | called a call he =>
    intro i call' hi hc
    rw [List.getElem?_append] at hc
    split_ifs at hc
    · exact h i call' hi hc
    · rw [List.getElem?_singleton] at hc
      split_ifs at hc
      cases hc
      rw [Call.passed_of_entered he]
      nofun
  | found i args c' hi => exact h.set hi nofun
  | passed i args c' hi hr =>
    -- with this token the look-up would have found the entry
    refine h.set hi fun hp => ?_
    cases hp
    have hm := (hl.fine _ (List.mem_of_getElem? hi)).signed c rfl
    rw [hl.isRevoked hm hg hn] at hr
    cases hr
  | timedRotate i args c' hi => exact h.set hi id
  | timedRevoke i maxTtl c' hi => exact h.set hi nofun
  | blacklisted i victim call c' ttl hi => exact h.set hi Call.passed_afterRevoke
  | signed i args c' new jti hi => exact h.set hi id
  | unsigned i args c' e jti hi => exact h.set hi nofun
  | _ => exact h

/-- In every execution whose steps leave no gap, a token that was rotated or revoked is not
    accepted again: no call that begins later gets past the look-up, at any instant up to the
    expiry of the token. -/
theorem replay_fails {l : List Action} (h : (system p).Reach (Covering p) s)
    (hr : ∃ call ∈ s.calls, call.retired = some c)
    (hl : (system p).Exec (Covering p) s l s') (hn : s'.now < c.expiresAt) :
    Unpassed s'.calls s.calls.length c := by
  -- from the state on where the token is retired, it is gone, and no new call gets past
  have hinv : Ledger p s' ∧ c ∈ s'.signed ∧ Gone s' c ∧
      (s'.now < c.expiresAt → Unpassed s'.calls s.calls.length c) := by
    refine hl.invariant (P := fun t => Ledger p t ∧ c ∈ t.signed ∧ Gone t c ∧
      (t.now < c.expiresAt → Unpassed t.calls s.calls.length c)) ?_ ?_
    · have hs := Ledger.of_reach h
      obtain ⟨call, hm, hc⟩ := hr
      have hf := hs.fine call hm
      refine ⟨hs, hf.signed c (Call.claims_of_retired hc), hf.gone c hc, fun _ i call hi hc => ?_⟩
      rw [List.getElem?_eq_none hi] at hc
      cases hc
    · rintro t a t' ⟨ht, hc, hg, hu⟩ hga hst
      have hst := step_step hst
      obtain ⟨hle, hk, hsub⟩ := hst.keeps hga
      refine ⟨ht.step hga hst, hsub c hc, hg.keeps ht hc hk hle, fun hn => ?_⟩
      have hn' : t.now < c.expiresAt := Nat.lt_of_le_of_lt hle hn
      exact unpassed_step ht hg hn' (hu hn') hst
  exact hinv.2.2.2 hn

/-! ## Two executions -/

/-- The default store, and a steady clock that was started before. -/
def defaultSetting : Setting := ⟨100000, -5⟩

/-- Tokens for one and for two seconds. -/
def shortArgs : PairArgs := ⟨bytes "ann", bytes "user", 1, 2⟩

/-- A token issued at the time 0. -/
def firstToken : Claims := ⟨bytes "7", bytes "a", 2 * second⟩

/-- The store with the entry of `firstToken`. -/
def firstEntry (expiry : Int) : Store := ⟨[(bytes "a", expiry)], by simp⟩

/-- The state after the login that issued `firstToken`. -/
def loggedIn : State := ⟨0, ⟨[], by simp⟩, [firstToken], []⟩

/-- The steps of a rotation of `firstToken`. -/
def rotation (i : Nat) (jti : Bytes) : List Action :=
  [.rotate (some firstToken) shortArgs [], .lookup i, .time i, .blacklist i [], .sign i (.ok jti)]

/-- A login leads to the state of the examples. -/
theorem reach_loggedIn {G : State → Action → Prop}
    (hG : ∀ s userId args jti, G s (.issue userId args jti)) :
    (system defaultSetting).Reach G loggedIn := by
  have h : (system defaultSetting).Reach G { loggedIn with signed := [] } :=
    .init ⟨rfl, rfl, rfl⟩
  exact h.step (a := .issue (bytes "7") shortArgs (.ok (bytes "a"))) (hG _ _ _ _)
    (by decide +kernel)

/-- The token was rotated a whole second before its expiry. -/
def rotatedOnTime : State where
  now := second
  store := firstEntry (2 * second - 5)
  signed := [firstToken, ⟨bytes "7", bytes "b", 3 * second⟩]
  calls := [.rotate shortArgs (.rotated firstToken ⟨bytes "7", bytes "b", 3 * second⟩)]

/-- Half a second later, the token is presented again and found in the store. -/
def replayRefused : State :=
  { rotatedOnTime with
    now := 1500000000
    calls := rotatedOnTime.calls ++ [.rotate shortArgs (.failed (revokedFailure firstToken))] }

theorem replay_fails_onTime :
    (system defaultSetting).Reach (Covering defaultSetting) rotatedOnTime ∧
      replayRefused.now < firstToken.expiresAt ∧
      Unpassed replayRefused.calls rotatedOnTime.calls.length firstToken := by
  have h : (system defaultSetting).Reach (Covering defaultSetting) rotatedOnTime :=
    System.reach_of_runGuarded (l := .tick second :: rotation 0 (bytes "b"))
      (reach_loggedIn fun _ _ _ _ => trivial) (by decide +kernel)
  refine ⟨h, by decide +kernel, replay_fails h ⟨_, List.mem_singleton_self _, rfl⟩
    (l := [.tick 500000000, .rotate (some firstToken) shortArgs [], .lookup 1])
    (System.exec_of_runGuarded (by decide +kernel)) (by decide +kernel)⟩

/-- The token was rotated a second and a half before its expiry: its entry is for one second. -/
def rotatedEarly : State where
  now := 500000000
  store := firstEntry (1500000000 - 5)
  signed := [firstToken, ⟨bytes "7", bytes "b", 2 * second⟩]
  calls := [.rotate shortArgs (.rotated firstToken ⟨bytes "7", bytes "b", 2 * second⟩)]

/-- A second later, the token is rotated again. -/
def rotatedAgain : State where
  now := 1500000000
  store := ⟨[], by simp⟩
  signed := rotatedEarly.signed ++ [⟨bytes "7", bytes "d", 3 * second⟩]
  calls := rotatedEarly.calls ++
    [.rotate shortArgs (.rotated firstToken ⟨bytes "7", bytes "d", 3 * second⟩)]

/-- A token that was rotated is rotated again, before its expiry. -/
theorem replay_succeeds_early :
    (system defaultSetting).Reach System.Always rotatedEarly ∧
      (∃ call ∈ rotatedEarly.calls, call.retired = some firstToken) ∧
      (system defaultSetting).Exec System.Always rotatedEarly
        (.tick second :: rotation 1 (bytes "d")) rotatedAgain ∧
      rotatedAgain.now < firstToken.expiresAt ∧
      ∃ new, rotatedAgain.calls[1]? = some (.rotate shortArgs (.rotated firstToken new)) := by
  refine ⟨?_, ⟨_, List.mem_singleton_self _, rfl⟩, ?_, by decide +kernel, _, rfl⟩
  · exact System.reach_of_run (l := .tick 500000000 :: rotation 0 (bytes "b"))
      (reach_loggedIn fun _ _ _ _ => trivial) (by decide +kernel)
  · exact System.exec_of_run (by decide +kernel)

end LiteCode.RefreshToken
