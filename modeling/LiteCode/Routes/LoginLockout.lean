import LiteCode.Routes.Login

/-!
# Locking an account

Sequences of login requests whose names are all spellings of one account: they are counted
together, under the stored name, whatever the spelling. Once the account has `threshold` wrong
passwords in a window it is to be refused, but the gate looks up the name as it was submitted: it
refuses the stored spelling and lets every other one through (`refused_iff_stored`).

The tracker holds one element for the account. A table of one element (`max_entries` 1) evicts it
at every failure, and is left out.
-/

namespace LiteCode.AuthRoutes

open LoginFailureTracker

/-- The state after a request; the clock does not go back. -/
def loginStep (srv : Server) (db : Users srv.weight) (s : State) (req : Request) : Option State :=
  if req.gateAt < s.clock ∨ req.denyAt < req.gateAt then none
  else some ⟨(loginHandler srv db s.failures req).2, req.denyAt⟩

/-- A server, from its start on. -/
def loginSystem (srv : Server) (db : Users srv.weight) : System State Request where
  init s := s.failures = ∅
  step := loginStep srv db

/-- The request submits a spelling of `u`. -/
def For (srv : Server) (db : Users srv.weight) (u : UserRow) (req : Request) : Prop :=
  ∃ p, req.parsed = .ok p ∧ db.findByUsername p.username = some u

/-- The request submits the stored spelling of `u`. -/
def AsStored (u : UserRow) (req : Request) : Prop :=
  ∃ p, req.parsed = .ok p ∧ p.username = u.username

/-- The time of a request with a wrong password for `u`. -/
def wrongAt (srv : Server) (u : UserRow) (req : Request) : Option Int :=
  match req.find, req.parsed with
  | .ok (), .ok p => if srv.verify p.password u.passwordHash then none else some req.denyAt
  | _, _ => none

/-- The request has the password of `u`. -/
def IsRight (srv : Server) (u : UserRow) (req : Request) : Prop :=
  req.find = .ok () ∧ ∃ p, req.parsed = .ok p ∧ srv.verify p.password u.passwordHash = true

/-- The times of the wrong passwords among the requests. -/
def wrongTimes (srv : Server) (u : UserRow) (l : List Request) : List Int :=
  l.filterMap (wrongAt srv u)

variable {srv : Server} {db : Users srv.weight} {u : UserRow} {s s' : State} {req : Request}
  {p : LoginRequest} {t₁ : Int} {ts : List Int}

/-! ## One request -/

/-- A request that the gate refuses changes nothing. -/
theorem loginHandler_refused (db : Users srv.weight) {m : Failures} (hp : req.parsed = .ok p)
    (hen : srv.cfg.enabled = true) (hl : (isLocked m req.gateAt p.username).1 = true) :
    loginHandler srv db m req = (lockedAnswer (isLocked m req.gateAt p.username).2, m) := by
  simp only [loginHandler, hp, hen, hl, Bool.and_self, if_true]

/-- A request that the gate lets through. -/
theorem loginHandler_passed {m : Failures} (hp : req.parsed = .ok p)
    (hl : (isLocked m req.gateAt p.username).1 = false) :
    loginHandler srv db m req = checkPassword srv db m req p := by
  simp only [loginHandler, hp, hl, Bool.and_false, Bool.false_eq_true, if_false]

/-- A request for `u` leaves the failures as they are, counts one for the stored name, or resets
    it. -/
theorem failures_cases {m : Failures} (hp : req.parsed = .ok p)
    (hu : db.findByUsername p.username = some u) :
    (loginHandler srv db m req).2 = m ∨
      (wrongAt srv u req = some req.denyAt ∧ (loginHandler srv db m req).2 =
        (recordFailure srv.cfg req.layout m req.denyAt u.username).2) ∨
      (IsRight srv u req ∧ (loginHandler srv db m req).2 = reset m u.username) := by
  simp only [loginHandler, hp]
  split_ifs with hg
  · exact .inl rfl
  · simp only [checkPassword, hu]
    cases hf : req.find with
    | error e => exact .inl rfl
    | ok _ =>
      cases hv : srv.verify p.password u.passwordHash with
      | true =>
        refine .inr (.inr ⟨⟨hf, p, hp, hv⟩, ?_⟩)
        cases hi : req.issue u <;> simp [hi, hv]
      | false =>
        refine .inr (.inl ⟨?_, by simp [hv]⟩)
        simp [wrongAt, hf, hp, hv]

/-- The request was denied: its failure is counted. -/
theorem failures_of_denied {m : Failures} (hp : req.parsed = .ok p)
    (hu : db.findByUsername p.username = some u)
    (hdenied : (loginHandler srv db m req).1 = deniedAnswer) :
    (loginHandler srv db m req).2 =
      (recordFailure srv.cfg req.layout m req.denyAt u.username).2 := by
  have hstatus : (loginHandler srv db m req).1.status = 401 := congrArg Response.status hdenied
  simp only [loginHandler, hp] at hstatus ⊢
  split_ifs at hstatus ⊢
  · simp [lockedAnswer] at hstatus
  · simp only [checkPassword, hu] at hstatus ⊢
    cases hf : req.find with
    | error e => simp [hf, sendError] at hstatus
    | ok _ =>
      cases hv : srv.verify p.password u.passwordHash with
      | true => cases hi : req.issue u <;> simp [hf, hv, hi, sendError, sessionAnswer] at hstatus
      | false => simp [hv]

/-- The tracker has no element but that of `u`. -/
def Only (u : UserRow) (s : State) : Prop := ∀ a ∈ s.failures, a = u.username

theorem not_evicted (hmax : srv.cfg.maxEntries ≠ 1) (h : Only u s) (layout : Layout Bytes Entry)
    (now : Int) : evicted srv.cfg layout s.failures now = none := by
  have hsize := UnorderedMap.size_le_one h
  rw [evicted, if_neg]
  omega

theorem Only.step (h : Only u s) (hmax : srv.cfg.maxEntries ≠ 1) (hne : u.username ≠ [])
    (hfor : For srv db u req) (hs : loginStep srv db s req = some s') : Only u s' := by
  obtain ⟨p, hp, hu⟩ := hfor
  rw [loginStep] at hs
  split_ifs at hs
  cases hs
  intro a ha
  dsimp only at ha
  rcases failures_cases (m := s.failures) hp hu with hm | ⟨-, hm⟩ | ⟨-, hm⟩
  · exact h a (hm ▸ ha)
  · obtain ⟨e, he⟩ := exists_recordFailure srv.cfg req.layout s.failures req.denyAt hne
    rw [hm, he, evict, not_evicted hmax h, AList.mem_insert] at ha
    exact ha.elim id (h a)
  · rw [hm, reset] at ha
    split_ifs at ha
    · exact h a ha
    · exact h a (AList.mem_erase.1 ha).2

theorem only_of_reach (hmax : srv.cfg.maxEntries ≠ 1) (hne : u.username ≠ [])
    (h : (loginSystem srv db).Reach (fun _ => For srv db u) s) : Only u s := by
  refine h.invariant (fun s hs => ?_) fun t req t' ht hfor hs => ht.step hmax hne hfor hs
  intro a ha
  rw [show s.failures = ∅ from hs] at ha
  exact absurd ha (AList.notMem_empty a)

theorem only_of_exec (hmax : srv.cfg.maxEntries ≠ 1) (hne : u.username ≠ []) {l : List Request}
    (h : Only u s) (hl : (loginSystem srv db).Exec (fun _ => For srv db u) s l s') : Only u s' :=
  hl.invariant h fun _ _ _ ht hfor hs => ht.step hmax hne hfor hs

/-- A name other than the stored one is never locked. -/
theorem not_locked_of_ne {now : Int} {name : Bytes} (h : Only u s) (hn : name ≠ u.username) :
    (isLocked s.failures now name).1 = false := by
  rw [isLocked]
  split_ifs
  · rfl
  · rw [AList.lookup_eq_none.2 fun hm => hn (h name hm)]

/-! ## Counting, and locked -/

theorem clock_of_loginStep (hs : loginStep srv db s req = some s') :
    s.clock ≤ req.gateAt ∧ req.gateAt ≤ s'.clock ∧ s'.clock = req.denyAt := by
  rw [loginStep] at hs
  split_ifs at hs with hc
  cases hs
  dsimp only
  omega

/-- Before the threshold, a wrong password under any spelling is counted. -/
theorem counted_step (hmax : srv.cfg.maxEntries ≠ 1) (hen : srv.cfg.enabled = true)
    (hne : u.username ≠ []) (ht₁ : 0 < t₁) (honly : Only u s)
    (h : InWindow srv.cfg u.username t₁ ts s) (hfor : For srv db u req)
    (hs : loginStep srv db s req = some s') (hw : wrongAt srv u req = some req.denyAt)
    (hn : ts.length + 1 < srv.cfg.threshold) (hwin : req.denyAt < t₁ + srv.cfg.window) :
    InWindow srv.cfg u.username t₁ (ts ++ [req.denyAt]) s' := by
  obtain ⟨p, hp, hu⟩ := hfor
  obtain ⟨hle, hge, hc⟩ := clock_of_loginStep hs
  have hopened : t₁ ≤ req.denyAt := h.opened.trans (hle.trans (hge.trans hc.le))
  -- the gate is open: the stored name is not locked yet, and no other name is in the table
  have hgate : (isLocked s.failures req.gateAt p.username).1 = false := by
    by_cases hpu : p.username = u.username
    · rw [hpu, Bool.eq_false_iff, Ne, isLocked_iff hne]
      rintro ⟨e, he, hlt⟩
      rw [h.entry, Option.some_inj] at he
      rw [← he, windowEntry, if_neg (not_le.2 hn)] at hlt
      have := h.opened
      dsimp only at hlt
      omega
    · exact not_locked_of_ne honly hpu
  have hm : (loginHandler srv db s.failures req).2 =
      (recordFailure srv.cfg req.layout s.failures req.denyAt u.username).2 := by
    simp only [wrongAt, hp] at hw
    rw [loginHandler_passed hp hgate]
    cases hf : req.find with
    | error e => simp [hf] at hw
    | ok _ =>
      simp only [hf, Option.ite_none_left_eq_some] at hw
      simp [checkPassword, hf, hu, hw.1]
  rw [loginStep] at hs
  split_ifs at hs
  cases hs
  refine ⟨?_, hopened⟩
  have hsp : evicted srv.cfg req.layout s.failures req.denyAt ≠ some u.username := by
    rw [not_evicted hmax honly]
    exact (Option.some_ne_none _).symm
  have := recordFailure_counting hne hen hsp ht₁ hopened h.entry hn hwin
  simpa [hm, lastFailure] using this

/-- A request without a wrong or right password changes nothing. -/
theorem neutral_step (h : InWindow srv.cfg u.username t₁ ts s) (hfor : For srv db u req)
    (hs : loginStep srv db s req = some s') (hw : wrongAt srv u req = none)
    (hr : ¬ IsRight srv u req) : InWindow srv.cfg u.username t₁ ts s' := by
  obtain ⟨p, hp, hu⟩ := hfor
  obtain ⟨hle, hge, -⟩ := clock_of_loginStep hs
  rw [loginStep] at hs
  split_ifs at hs
  cases hs
  refine ⟨?_, h.opened.trans (hle.trans hge)⟩
  rcases failures_cases (m := s.failures) hp hu with hm | ⟨hw', -⟩ | ⟨hr', -⟩
  · exact (congrArg _ hm).trans h.entry
  · rw [hw] at hw'
    cases hw'
  · exact absurd hr' hr

/-- The element of `u` while its failures are counted. -/
theorem inWindow_of_requests {s₁ s₂ : State} {l : List Request} (hmax : srv.cfg.maxEntries ≠ 1)
    (hen : srv.cfg.enabled = true) (hne : u.username ≠ []) (ht₁ : 0 < t₁) (honly : Only u s₁)
    (h₁ : InWindow srv.cfg u.username t₁ [] s₁)
    (hl : (loginSystem srv db).Exec (fun _ => For srv db u) s₁ l s₂)
    (hr : ∀ req ∈ l, ¬ IsRight srv u req)
    (hlen : (wrongTimes srv u l).length + 1 ≤ srv.cfg.threshold)
    (hwin : ∀ t ∈ wrongTimes srv u l, t < t₁ + srv.cfg.window) :
    InWindow srv.cfg u.username t₁ (wrongTimes srv u l) s₂ := by
  induction hl with
  | nil => exact h₁
  | @snoc t t' l a hl hfor hs ih =>
    have hr' : ∀ req ∈ l, ¬ IsRight srv u req := fun b hb => hr b (List.mem_append_left _ hb)
    have honly' := only_of_exec hmax hne honly hl
    rw [wrongTimes, List.filterMap_append] at hlen hwin ⊢
    -- Only a wrong password is counted; any other request leaves the element as it is.
    cases hw : wrongAt srv u a with
    | none =>
      rw [List.filterMap_cons_none hw, List.filterMap_nil, List.append_nil] at hlen hwin ⊢
      exact neutral_step (ih hr' hlen hwin) hfor hs hw
        (hr a (List.mem_append_right _ (List.mem_singleton_self a)))
    | some now =>
      rw [List.filterMap_cons_some hw, List.filterMap_nil] at hlen hwin ⊢
      obtain rfl : now = a.denyAt := by
        simp only [wrongAt] at hw
        split at hw
        · simp only [Option.ite_none_left_eq_some, Option.some.injEq] at hw
          exact hw.2.symm
        · cases hw
      have hlen' : (wrongTimes srv u l).length + 1 < srv.cfg.threshold := by
        simp only [List.length_append, List.length_singleton, wrongTimes] at hlen ⊢
        omega
      exact counted_step hmax hen hne ht₁ honly' (ih hr' hlen'.le fun t ht => hwin t
        (List.mem_append_left _ ht)) hfor hs hw hlen'
          (hwin a.denyAt (List.mem_append_right _ (List.mem_singleton_self _)))

/-- The stored name is locked from the threshold on. -/
theorem isLocked_of_inWindow {now : Int} (hne : u.username ≠ [])
    (h : InWindow srv.cfg u.username t₁ ts s) (hn : srv.cfg.threshold ≤ ts.length + 1)
    (hlt : now < lastFailure t₁ ts + srv.cfg.duration) :
    (isLocked s.failures now u.username).1 = true := by
  refine (isLocked_iff hne).2 ⟨_, h.entry, ?_⟩
  simpa [windowEntry, hn] using hlt

/-- While it is locked, requests under the stored name change nothing. -/
theorem inWindow_of_refused {s₂ s₃ : State} {l : List Request} (hen : srv.cfg.enabled = true)
    (hne : u.username ≠ []) (h₂ : InWindow srv.cfg u.username t₁ ts s₂)
    (hn : srv.cfg.threshold ≤ ts.length + 1)
    (hl : (loginSystem srv db).Exec (fun _ req => For srv db u req ∧ AsStored u req) s₂ l s₃)
    (hlt : s₃.clock < lastFailure t₁ ts + srv.cfg.duration) :
    InWindow srv.cfg u.username t₁ ts s₃ := by
  induction hl with
  | nil => exact h₂
  | @snoc t t' l a hl hfor hs ih =>
    obtain ⟨-, p, hp, hpu⟩ := hfor
    obtain ⟨hle, hge, -⟩ := clock_of_loginStep hs
    have h := ih ((hle.trans hge).trans_lt hlt)
    have hlocked : (isLocked t.failures a.gateAt p.username).1 = true :=
      hpu ▸ isLocked_of_inWindow hne h hn (hge.trans_lt hlt)
    have hm := loginHandler_refused db hp hen hlocked
    simp only [loginSystem, loginStep] at hs
    split_ifs at hs
    cases hs
    exact ⟨(congrArg _ (congrArg Prod.snd hm)).trans h.entry, h.opened.trans (hle.trans hge)⟩

/-- The answers after the gate are not the lockout answer. -/
theorem checkPassword_status {m : Failures} (n : Int) :
    (checkPassword srv db m req p).1 ≠ lockedAnswer n := by
  have hne : ∀ r : Response, r.status ≠ 423 → r ≠ lockedAnswer n := fun r hr h => hr (h ▸ rfl)
  apply hne
  unfold checkPassword
  split
  · simp [sendError]
  · simp [deniedAnswer, sendError]
  · split_ifs
    · split <;> simp [sendError, sessionAnswer]
    · simp [deniedAnswer, sendError]

/-- An account whose window was opened by a wrong password, with `threshold` of them in the window
    and no right one: as long as the lockout lasts, and the requests so far in it were made under
    the stored spelling, a request for the account is refused with the lockout answer exactly if
    it is made under the stored spelling, too. -/
theorem refused_iff_stored (srv : Server) (db : Users srv.weight) (u : UserRow)
    (hen : srv.cfg.enabled = true) (hmax : srv.cfg.maxEntries ≠ 1) {s₀ s₁ s₂ s₃ : State}
    {first req : Request} {l l' : List Request}
    (h₀ : (loginSystem srv db).Reach (fun _ => For srv db u) s₀) (hfirst : For srv db u first)
    (hs₁ : loginStep srv db s₀ first = some s₁)
    (hdenied : (loginHandler srv db s₀.failures first).1 = deniedAnswer)
    (ht₁ : 0 < first.denyAt)
    (hopens : Opens srv.cfg first.layout s₀.failures first.denyAt u.username)
    (hl : (loginSystem srv db).Exec (fun _ => For srv db u) s₁ l s₂)
    (hr : ∀ req ∈ l, ¬ IsRight srv u req)
    (hlen : (wrongTimes srv u l).length + 1 = srv.cfg.threshold)
    (hwin : ∀ t ∈ wrongTimes srv u l, t < first.denyAt + srv.cfg.window)
    (hl' : (loginSystem srv db).Exec (fun _ req => For srv db u req ∧ AsStored u req) s₂ l' s₃)
    (hreq : For srv db u req) (hclock : s₃.clock ≤ req.gateAt)
    (hlt : req.gateAt < lastFailure first.denyAt (wrongTimes srv u l) + srv.cfg.duration) :
    (∃ n, (loginHandler srv db s₃.failures req).1 = lockedAnswer n) ↔ AsStored u req := by
  have hne : u.username ≠ [] := by
    obtain ⟨p, -, hu⟩ := hreq
    exact db.nonempty u (findByUsername_eq_some_iff.1 hu).1
  have honly₀ := only_of_reach hmax hne h₀
  have honly₁ : Only u s₁ := honly₀.step hmax hne hfirst hs₁
  have h₁ : InWindow srv.cfg u.username first.denyAt [] s₁ := by
    obtain ⟨p, hp, hu⟩ := hfirst
    have hm := failures_of_denied hp hu hdenied
    rw [loginStep] at hs₁
    split_ifs at hs₁
    cases hs₁
    refine ⟨?_, le_refl _⟩
    dsimp only
    rw [hm]
    exact recordFailure_opens hne hen ht₁ hopens
  have h₂ := inWindow_of_requests hmax hen hne ht₁ honly₁ h₁ hl hr hlen.le hwin
  have h₃ := inWindow_of_refused hen hne h₂ hlen.ge hl' (hclock.trans_lt hlt)
  have honly₃ : Only u s₃ := only_of_exec hmax hne (only_of_exec hmax hne honly₁ hl)
    (hl'.mono fun _ _ h => h.1)
  obtain ⟨p, hp, hu⟩ := hreq
  constructor
  · rintro ⟨n, hn⟩
    -- The table has no element but that of the stored spelling (`Only`).
    by_contra hst
    have hpu : p.username ≠ u.username := fun h => hst ⟨p, hp, h⟩
    rw [loginHandler_passed hp (not_locked_of_ne honly₃ hpu)] at hn
    exact checkPassword_status n hn
  · rintro ⟨p', hp', hpu⟩
    exact ⟨_, congrArg Prod.fst (loginHandler_refused db hp' hen
      (hpu ▸ isLocked_of_inWindow hne h₃ hlen.ge hlt))⟩

/-! ## The stored spelling and another one -/

theorem for_wrongLogin (sec : Int) {body : String} {p : LoginRequest}
    (hp : (wrongLogin 0 body).parsed = .ok p)
    (hu : withAlice.findByUsername p.username = some alice) :
    For twoServer withAlice alice (wrongLogin sec body) :=
  ⟨p, (parsed_wrongLogin sec body).trans hp, hu⟩

/-- The state after a request of `wrongLogin`. -/
def afterLogin (s : State) (sec : Int) (body : String) : State :=
  ⟨(loginHandler twoServer withAlice s.failures (wrongLogin sec body)).2, seconds sec⟩

theorem loginStep_wrongLogin (s : State) (sec : Int) (body : String) (h : s.clock ≤ seconds sec) :
    loginStep twoServer withAlice s (wrongLogin sec body) = some (afterLogin s sec body) := by
  rw [loginStep, if_neg]
  · rfl
  · simp [wrongLogin, h]

/-- Wrong passwords for `ALICE` and `Alice` lock the account: `alice` is refused, even with the
    right password. -/
theorem refused_iff_stored_alice :
    ∃ n, (loginHandler twoServer withAlice (afterLogin
        (afterLogin ⟨∅, 0⟩ 1 (loginBody "ALICE" "guess")) 2 (loginBody "Alice" "guess")).failures
      (wrongLogin 3 (loginBody "alice" "secret"))).1 = lockedAnswer n := by
  have hupper : (wrongLogin 0 (loginBody "ALICE" "guess")).parsed =
      .ok ⟨bytes "ALICE", bytes "guess"⟩ := by decide +kernel
  have hmixed : (wrongLogin 0 (loginBody "Alice" "guess")).parsed =
      .ok ⟨bytes "Alice", bytes "guess"⟩ := by decide +kernel
  have hlower : (wrongLogin 0 (loginBody "alice" "secret")).parsed =
      .ok ⟨bytes "alice", bytes "secret"⟩ := by decide +kernel
  have htimes : wrongTimes twoServer alice [wrongLogin 2 (loginBody "Alice" "guess")] =
      [seconds 2] := by decide +kernel
  have hfirst := loginStep_wrongLogin ⟨∅, 0⟩ 1 (loginBody "ALICE" "guess") (by decide)
  have hsecond := loginStep_wrongLogin (afterLogin ⟨∅, 0⟩ 1 (loginBody "ALICE" "guess")) 2
    (loginBody "Alice" "guess") (by decide)
  have hl : (loginSystem twoServer withAlice).Exec (fun _ => For twoServer withAlice alice)
      (afterLogin ⟨∅, 0⟩ 1 (loginBody "ALICE" "guess"))
      [wrongLogin 2 (loginBody "Alice" "guess")] _ :=
    .cons (for_wrongLogin 2 hmixed (by decide)) hsecond (.nil _)
  have h₀ : (loginSystem twoServer withAlice).Reach (fun _ => For twoServer withAlice alice)
      ⟨∅, 0⟩ := .init rfl
  refine (refused_iff_stored twoServer withAlice alice rfl (by decide) h₀
    (for_wrongLogin 1 hupper (by decide)) hfirst (by decide +kernel) (by decide) (by decide) hl ?_
    ?_ ?_ (.nil _) (for_wrongLogin 3 hlower (by decide)) (by decide) ?_).2
      ⟨_, (parsed_wrongLogin 3 _).trans hlower, rfl⟩
  · rintro req hreq ⟨-, p, hp, hv⟩
    rw [List.mem_singleton.1 hreq, parsed_wrongLogin, hmixed] at hp
    cases hp
    exact absurd hv (by decide)
  · rw [htimes]
    decide
  · rw [htimes]
    decide
  · rw [htimes]
    decide

/-- The account `alice` is locked after two wrong passwords, and a third one for `ALICE` is
    answered as if it were not. -/
theorem spelling_not_refused : ∃ s₂, (loginSystem twoServer withAlice).Exec System.Always ⟨∅, 0⟩
      [wrongLogin 1 (loginBody "ALICE" "guess"), wrongLogin 2 (loginBody "ALICE" "guess")] s₂ ∧
    (isLocked s₂.failures (seconds 3) (bytes "alice")).1 = true ∧
    (loginHandler twoServer withAlice s₂.failures
      (wrongLogin 3 (loginBody "ALICE" "guess"))).1 = deniedAnswer := by
  obtain ⟨s₂, hl, h⟩ := System.exists_exec_of_run (S := loginSystem twoServer withAlice)
    (s := ⟨∅, 0⟩) (l := [wrongLogin 1 (loginBody "ALICE" "guess"),
      wrongLogin 2 (loginBody "ALICE" "guess")])
    (p := fun s => (isLocked s.failures (seconds 3) (bytes "alice")).1 &&
      (loginHandler twoServer withAlice s.failures
        (wrongLogin 3 (loginBody "ALICE" "guess"))).1 == deniedAnswer) (by decide +kernel)
  simp only [Bool.and_eq_true, beq_iff_eq] at h
  exact ⟨s₂, hl, h⟩

end LiteCode.AuthRoutes
