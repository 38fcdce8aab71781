import LiteCode.Lib.Bytes
import LiteCode.Lib.System

/-!
# Signing out

The session of a page in `src/web/js/api.js`: the access token in memory, the refresh that all
callers share (`refreshTokens`), the calls that refresh and replay on a `401`
(`fetchWithAutoRefresh`), `login` and `register`, `logout` and the forced sign-out. A step is one
callback of a promise, or the start of a call; the answers of the server come in any order.

The completion of a refresh, a login or a registration writes the token whatever has happened since
it was started, and `forceSignOut` does nothing while a redirect is in flight. Every task keeps the
number of sign-outs before its start, and the state that of the task that wrote the token.

* `Final`: the token in memory, if there is one, was asked for after the last sign-out;
* `Timely`: a token comes from a task that was started after the last sign-out, and a forced
  sign-out finds no redirect in flight or no token;
* `final_of_reach`: in a run of such steps the sign-out is final, and any other step ends this.
-/

namespace LiteCode.Session

/-! ## Tasks -/

/-- A refresh: the promise that `refreshTokens` makes. -/
inductive RefreshPhase
  | fetching
  /-- The headers are there, and the body is being read. -/
  | reading
  /-- It has thrown, and the handler has not run yet. -/
  | thrown
  /-- The token is written, and the last callback has not run yet. -/
  | stored
  | fulfilled
  | rejected
  deriving DecidableEq, Repr

/-- A refresh, with the number of sign-outs before it. -/
structure Refresh where
  epoch : Nat
  phase : RefreshPhase
  deriving DecidableEq, Repr

/-- What a call is for. -/
inductive Kind
  /-- A call on `/auth/refresh` is not retried either. -/
  | request (noRetryOn401 : Bool)
  /-- `login` or `register`. -/
  | signIn
  deriving DecidableEq, Repr

/-- A call of `fetchWithAutoRefresh`, with what its caller does. -/
inductive CallPhase
  | fetching (replay : Bool)
  /-- The answer is a `401`. -/
  | unauthorized
  /-- It waits for a refresh. -/
  | refreshing (r : Nat)
  /-- The refresh or the replay has failed. -/
  | failing
  /-- The answer of a sign-in, with its token and its user. -/
  | answered (access user : Option Bytes)
  | ended
  deriving DecidableEq, Repr

/-- A call, with the number of sign-outs before it. -/
structure Call where
  kind : Kind
  epoch : Nat
  phase : CallPhase
  deriving DecidableEq, Repr

/-- A call of `logout`. -/
inductive LogoutPhase
  | posting
  | clearing
  | resolved
  deriving DecidableEq, Repr

/-- The variables of the module, the promises, and two counts that the code does not keep: the
    sign-outs so far, and those before the task that wrote the token. -/
structure State where
  accessToken : Option Bytes
  cachedUser : Option Bytes
  lastRefreshSucceeded : Bool
  inflightRefresh : Option Nat
  redirectInFlight : Bool
  refreshes : List Refresh
  calls : List Call
  logouts : List LogoutPhase
  signOuts : Nat
  writer : Nat
  deriving DecidableEq, Repr

/-! ## Functions -/

/-- `access || null`. -/
def orNull (access : Option Bytes) : Option Bytes := access.filter (· ≠ [])

/-- `setAccessToken` in a task with the given epoch. A user that is `undefined` is not written. -/
def setAccessToken (s : State) (epoch : Nat) (access : Option Bytes)
    (user : Option (Option Bytes)) : State :=
  { s with
    accessToken := orNull access
    cachedUser := user.getD s.cachedUser
    writer := epoch }

/-- `clearAuthLocal`. -/
def clearAuthLocal (s : State) : State := { s with accessToken := none, cachedUser := none }

/-- `refreshTokens`: the promise that it returns. -/
def refreshTokens (s : State) : State × Nat :=
  match s.inflightRefresh with
  | some r => (s, r)
  | none =>
    ({ s with
        inflightRefresh := some s.refreshes.length
        refreshes := s.refreshes ++ [⟨s.signOuts, .fetching⟩] }, s.refreshes.length)

/-- `forceSignOut`. -/
def forceSignOut (s : State) : State :=
  let s := { s with signOuts := s.signOuts + 1 }
  if s.redirectInFlight then s else clearAuthLocal { s with redirectInFlight := true }

/-- The last callback of `logout`. -/
def resolveLogout (s : State) : State :=
  { clearAuthLocal s with lastRefreshSucceeded := false, signOuts := s.signOuts + 1 }

/-! ## Steps -/

/-- What comes back for a call. -/
inductive Answer
  | ok (access user : Option Bytes)
  | unauthorized
  | failed
  deriving DecidableEq, Repr

/-- A call is started, an answer comes, or a callback runs. -/
inductive Action
  | tryRefresh
  | start (kind : Kind)
  | logout
  | refreshHeaders (r : Nat)
  /-- The body of a refresh; `none` is an answer without a token. -/
  | refreshBody (r : Nat) (answer : Option (Bytes × Option Bytes))
  | refreshFail (r : Nat)
  | refreshSettle (r : Nat)
  | answer (i : Nat) (a : Answer)
  | callback (i : Nat)
  | logoutAnswer (p : Nat)
  | logoutResolve (p : Nat)
  deriving DecidableEq, Repr

/-- A refresh goes on. -/
def State.setRefresh (s : State) (r : Nat) (x : Refresh) (phase : RefreshPhase) : State :=
  { s with refreshes := s.refreshes.set r { x with phase } }

/-- A call goes on. -/
def State.setCall (s : State) (i : Nat) (c : Call) (phase : CallPhase) : State :=
  { s with calls := s.calls.set i { c with phase } }

/-- A logout goes on. -/
def State.setLogout (s : State) (p : Nat) (phase : LogoutPhase) : State :=
  { s with logouts := s.logouts.set p phase }

/-- The callback that gets the body of a refresh. -/
def refreshBody (s : State) (r : Nat) (x : Refresh) (answer : Option (Bytes × Option Bytes)) :
    State :=
  match answer with
  | none => { s.setRefresh r x .thrown with lastRefreshSucceeded := false }
  | some (access, user) =>
    if access = [] then { s.setRefresh r x .thrown with lastRefreshSucceeded := false }
    else { setAccessToken (s.setRefresh r x .stored) x.epoch (some access) (user.map some) with
      lastRefreshSucceeded := true }

/-- The handler of a refresh that has thrown, or its last callback. -/
def refreshSettle (s : State) (r : Nat) (x : Refresh) : Option State :=
  match x.phase with
  | .thrown => some { s.setRefresh r x .rejected with
      lastRefreshSucceeded := false, inflightRefresh := none }
  | .stored => some { s.setRefresh r x .fulfilled with inflightRefresh := none }
  | _ => none

/-- The answer for a call. After a replay every error is caught. -/
def answered (s : State) (i : Nat) (c : Call) (replay : Bool) : Answer → State
  | .ok access user =>
    match c.kind with
    | .signIn => s.setCall i c (.answered access user)
    | .request _ => s.setCall i c .ended
  | .unauthorized =>
    if replay then s.setCall i c .failing
    else if c.kind = .request false then s.setCall i c .unauthorized
    else s.setCall i c .ended
  | .failed => if replay then s.setCall i c .failing else s.setCall i c .ended

/-- The next callback of a call. -/
def callback (s : State) (i : Nat) (c : Call) : Option State :=
  match c.phase with
  | .unauthorized =>
    let (s, r) := refreshTokens s
    some (s.setCall i c (.refreshing r))
  | .refreshing r => s.refreshes[r]?.bind fun x =>
    match x.phase with
    | .fulfilled => some (s.setCall i c (.fetching true))
    | .rejected => some (s.setCall i c .failing)
    | _ => none
  | .failing => some (forceSignOut (s.setCall i c .ended))
  | .answered access user =>
    some { setAccessToken (s.setCall i c .ended) c.epoch access (some user) with
      lastRefreshSucceeded := true }
  | _ => none

/-- One step. -/
def step (s : State) : Action → Option State
  | .tryRefresh => some (refreshTokens s).1
  | .start kind => some { s with calls := s.calls ++ [⟨kind, s.signOuts, .fetching false⟩] }
  | .logout => some { s with
      logouts := s.logouts ++ [if s.accessToken = none then .clearing else .posting] }
  | .refreshHeaders r => s.refreshes[r]?.bind fun x =>
    if x.phase = .fetching then some (s.setRefresh r x .reading) else none
  | .refreshBody r answer => s.refreshes[r]?.bind fun x =>
    if x.phase = .reading then some (refreshBody s r x answer) else none
  | .refreshFail r => s.refreshes[r]?.bind fun x =>
    if x.phase = .fetching ∨ x.phase = .reading then some (s.setRefresh r x .thrown) else none
  | .refreshSettle r => s.refreshes[r]?.bind (refreshSettle s r)
  | .answer i a => s.calls[i]?.bind fun c =>
    match c.phase with
    | .fetching replay => some (answered s i c replay a)
    | _ => none
  | .callback i => s.calls[i]?.bind (callback s i)
  | .logoutAnswer p => s.logouts[p]?.bind fun phase =>
    if phase = .posting then some (s.setLogout p .clearing) else none
  | .logoutResolve p => s.logouts[p]?.bind fun phase =>
    if phase = .clearing then some (resolveLogout (s.setLogout p .resolved)) else none

/-- A page; the user of the tab may be known from an earlier one. -/
def page : System State Action where
  init s := ∃ user, s = ⟨none, user, false, none, false, [], [], [], 0, 0⟩
  step := step

/-! ## The promise -/

/-- The token, if there is one, was asked for after the last sign-out. -/
def Final (s : State) : Prop := s.accessToken ≠ none → s.writer = s.signOuts

/-- A callback of a call that is harmless: a sign-in that was started after the last sign-out or has
    no token, and a forced sign-out that does something or finds no token. -/
def Call.Timely (s : State) (c : Call) : Prop :=
  match c.phase with
  | .answered access _ => c.epoch = s.signOuts ∨ orNull access = none
  | .failing => s.redirectInFlight = false ∨ s.accessToken = none
  | _ => True

/-- A step that is harmless: the token of a refresh, too, is written only if the refresh was started
    after the last sign-out. -/
def Timely (s : State) : Action → Prop
  | .refreshBody r (some (access, _)) =>
    ∀ x ∈ s.refreshes[r]?, x.epoch = s.signOuts ∨ access = []
  | .callback i => ∀ c ∈ s.calls[i]?, c.Timely s
  | _ => True

instance (s : State) (c : Call) : Decidable (c.Timely s) :=
  match h : c.phase with
  | .answered access _ => decidable_of_iff (c.epoch = s.signOuts ∨ orNull access = none)
      (by rw [Call.Timely, h])
  | .failing => decidable_of_iff (s.redirectInFlight = false ∨ s.accessToken = none)
      (by rw [Call.Timely, h])
  | .fetching _ | .unauthorized | .refreshing _ | .ended => isTrue (by simp [Call.Timely, h])

instance (s : State) : (a : Action) → Decidable (Timely s a)
  | .refreshBody r (some (access, _)) =>
    inferInstanceAs (Decidable (∀ x ∈ s.refreshes[r]?, x.epoch = s.signOuts ∨ access = []))
  | .callback i => inferInstanceAs (Decidable (∀ c ∈ s.calls[i]?, c.Timely s))
  | .refreshBody _ none | .tryRefresh | .start _ | .logout | .refreshHeaders _ | .refreshFail _
  | .refreshSettle _ | .answer .. | .logoutAnswer _ | .logoutResolve _ => isTrue trivial

/-! ## What the functions do to the promise -/

variable {s s' : State} {a : Action} {r i : Nat} {x : Refresh} {c : Call}

theorem orNull_eq_none {access : Option Bytes} : orNull access = none ↔ ∀ b ∈ access, b = [] := by
  simp [orNull, Option.filter_eq_none_iff]

/-- Without a token nothing is promised. -/
theorem final_of_none (h : s.accessToken = none) : Final s := fun hne => absurd h hne

/-- A step that changes neither the token nor the counts. -/
theorem Final.keep (h : Final s) (ht : s'.accessToken = s.accessToken) (hw : s'.writer = s.writer)
    (hn : s'.signOuts = s.signOuts) : Final s' := by
  intro hne
  rw [ht] at hne
  rw [hw, hn]
  exact h hne

theorem Final.refreshTokens (h : Final s) : Final (refreshTokens s).1 := by
  rw [Session.refreshTokens]
  split
  · exact h
  · exact h.keep rfl rfl rfl

/-- A refresh or a sign-in writes its token. -/
theorem final_setAccessToken_iff (s : State) (epoch : Nat) (access : Option Bytes)
    (user : Option (Option Bytes)) :
    Final { setAccessToken s epoch access user with lastRefreshSucceeded := true } ↔
      epoch = s.signOuts ∨ orNull access = none := by
  change (orNull access ≠ none → epoch = s.signOuts) ↔ _
  rw [← or_iff_not_imp_right]

theorem final_clearAuthLocal : Final (clearAuthLocal s) := final_of_none rfl

theorem Final.refreshBody_iff (h : Final s) (hx : s.refreshes[r]? = some x)
    {answer : Option (Bytes × Option Bytes)} :
    Final (refreshBody s r x answer) ↔ Timely s (.refreshBody r answer) := by
  match answer with
  | none => exact iff_of_true (h.keep rfl rfl rfl) trivial
  | some (access, user) =>
    have htimely : Timely s (.refreshBody r (some (access, user))) ↔
        x.epoch = s.signOuts ∨ access = [] := by simp [Timely, hx]
    rw [htimely, refreshBody]
    split_ifs with ha
    · exact iff_of_true (h.keep rfl rfl rfl) (.inr ha)
    · refine (final_setAccessToken_iff (s.setRefresh r x .stored) _ _ _).trans ?_
      simp [orNull_eq_none, State.setRefresh]

theorem Final.forceSignOut_iff (h : Final s) :
    Final (forceSignOut s) ↔ s.redirectInFlight = false ∨ s.accessToken = none := by
  rw [forceSignOut]
  cases hr : s.redirectInFlight with
  | false => exact iff_of_true final_clearAuthLocal (.inl rfl)
  | true =>
    -- the token is the one of the last session, and a sign-out more is counted
    constructor
    · intro hf
      by_contra hne
      simp only [Bool.true_eq_false, false_or] at hne
      have hlast : s.writer = s.signOuts := h hne
      have hnow : s.writer = s.signOuts + 1 := hf hne
      omega
    · rintro (hc | hnone)
      · cases hc
      · exact final_of_none hnone

theorem Final.answered (h : Final s) {replay : Bool} {x : Answer} :
    Final (answered s i c replay x) := by
  have hkeep : ∀ phase, Final (s.setCall i c phase) := fun _ => h.keep rfl rfl rfl
  cases x with
  | ok access user =>
    simp only [Session.answered]
    split <;> exact hkeep _
  | unauthorized =>
    simp only [Session.answered]
    split_ifs <;> exact hkeep _
  | failed =>
    simp only [Session.answered]
    split_ifs <;> exact hkeep _

theorem Final.refreshSettle (h : Final s) (hs : refreshSettle s r x = some s') : Final s' := by
  simp only [Session.refreshSettle] at hs
  split at hs
  · cases hs
    exact h.keep rfl rfl rfl
  · cases hs
    exact h.keep rfl rfl rfl
  · cases hs

theorem Final.callback_iff (h : Final s) (hs : callback s i c = some s') :
    Final s' ↔ c.Timely s := by
  rw [Call.Timely]
  simp only [callback] at hs
  cases hp : c.phase with
  | fetching replay => simp [hp] at hs
  | ended => simp [hp] at hs
  | unauthorized =>
    simp only [hp, Option.some.injEq] at hs
    subst hs
    exact iff_of_true (h.refreshTokens.keep rfl rfl rfl) trivial
  | refreshing r =>
    simp only [hp, Option.bind_eq_some_iff] at hs
    obtain ⟨x, -, hs⟩ := hs
    refine iff_of_true ?_ trivial
    split at hs
    · cases hs
      exact h.keep rfl rfl rfl
    · cases hs
      exact h.keep rfl rfl rfl
    · cases hs
  | failing =>
    simp only [hp, Option.some.injEq] at hs
    subst hs
    exact (h.keep rfl rfl rfl : Final (s.setCall i c .ended)).forceSignOut_iff
  | answered access user =>
    simp only [hp, Option.some.injEq] at hs
    subst hs
    exact final_setAccessToken_iff (s.setCall i c .ended) _ _ _

/-! ## Runs -/

/-- The step of a page keeps the promise exactly if it is timely. -/
theorem Final.step_iff (h : Final s) (hs : step s a = some s') : Final s' ↔ Timely s a := by
  -- Only the body of a refresh and the callback of a call can come too late.
  cases a with
  | tryRefresh =>
    cases hs
    exact iff_of_true h.refreshTokens trivial
  | start kind =>
    cases hs
    exact iff_of_true (h.keep rfl rfl rfl) trivial
  | logout =>
    cases hs
    exact iff_of_true (h.keep rfl rfl rfl) trivial
  | refreshHeaders r =>
    obtain ⟨x, -, hs⟩ := Option.bind_eq_some_iff.1 hs
    split_ifs at hs
    cases hs
    exact iff_of_true (h.keep rfl rfl rfl) trivial
  | refreshBody r answer =>
    obtain ⟨x, hx, hs⟩ := Option.bind_eq_some_iff.1 hs
    split_ifs at hs
    cases hs
    exact h.refreshBody_iff hx
  | refreshFail r =>
    obtain ⟨x, -, hs⟩ := Option.bind_eq_some_iff.1 hs
    split_ifs at hs
    cases hs
    exact iff_of_true (h.keep rfl rfl rfl) trivial
  | refreshSettle r =>
    obtain ⟨x, -, hs⟩ := Option.bind_eq_some_iff.1 hs
    exact iff_of_true (h.refreshSettle hs) trivial
  | answer i a =>
    obtain ⟨c, -, hs⟩ := Option.bind_eq_some_iff.1 hs
    split at hs
    · cases hs
      exact iff_of_true h.answered trivial
    · cases hs
  | callback i =>
    obtain ⟨c, hc, hs⟩ := Option.bind_eq_some_iff.1 hs
    rw [h.callback_iff hs]
    simp [Timely, hc]
  | logoutAnswer p =>
    obtain ⟨phase, -, hs⟩ := Option.bind_eq_some_iff.1 hs
    split_ifs at hs
    cases hs
    exact iff_of_true (h.keep rfl rfl rfl) trivial
  | logoutResolve p =>
    obtain ⟨phase, -, hs⟩ := Option.bind_eq_some_iff.1 hs
    split_ifs at hs
    cases hs
    exact iff_of_true (final_of_none rfl) trivial

/-- In a run of timely steps a sign-out is final in every state, and a step that is not timely ends
    this. -/
theorem final_of_reach (s : State) (h : page.Reach Timely s) :
    Final s ∧ ∀ a s', page.step s a = some s' → (Final s' ↔ Timely s a) := by
  have hf : Final s := by
    refine h.invariant ?_ fun t a t' ht hg hs => (ht.step_iff hs).2 hg
    rintro _ ⟨user, rfl⟩
    exact final_of_none rfl
  exact ⟨hf, fun a s' => hf.step_iff⟩

/-- A user signs out and signs in again, and the page refreshes the token. -/
theorem final_of_reach_again : ∃ s : State,
    s.accessToken = some (bytes "b") ∧ s.signOuts = 1 ∧ Final s := by
  obtain ⟨s, hl, hs⟩ := System.exists_exec_of_runGuarded
    (S := page) (G := Timely) (s := ⟨none, none, false, none, false, [], [], [], 0, 0⟩)
    (l := [.start .signIn, .answer 0 (.ok (some (bytes "a")) none), .callback 0, .logout,
      .logoutAnswer 0, .logoutResolve 0, .start .signIn,
      .answer 1 (.ok (some (bytes "a")) none), .callback 1, .start (.request false),
      .answer 2 .unauthorized, .callback 2, .refreshHeaders 0,
      .refreshBody 0 (some (bytes "b", none)), .refreshSettle 0, .callback 2])
    (p := fun s => s.accessToken = some (bytes "b") ∧ s.signOuts = 1) (by decide +kernel)
  obtain ⟨htoken, hcount⟩ := of_decide_eq_true hs
  exact ⟨s, htoken, hcount, (final_of_reach s ⟨_, _, ⟨none, rfl⟩, hl⟩).1⟩

/-- A refresh is under way when the user signs out, and its answer signs the user in again. -/
theorem refresh_survives_logout : ∃ s : State,
    page.Reach System.Always s ∧ s.logouts = [.resolved] ∧
      s.accessToken = some (bytes "b") ∧ ¬Final s := by
  obtain ⟨s, hl, hs⟩ := System.exists_exec_of_run
    (S := page) (s := ⟨none, none, false, none, false, [], [], [], 0, 0⟩)
    (l := [.start .signIn, .answer 0 (.ok (some (bytes "a")) none), .callback 0,
      .start (.request false), .answer 1 .unauthorized, .callback 1, .refreshHeaders 0, .logout,
      .logoutAnswer 0, .logoutResolve 0, .refreshBody 0 (some (bytes "b", none))])
    (p := fun s => s.logouts = [.resolved] ∧ s.accessToken = some (bytes "b") ∧
      s.writer = 0 ∧ s.signOuts = 1) (by decide +kernel)
  obtain ⟨hlogouts, htoken, hwriter, hcount⟩ := of_decide_eq_true hs
  refine ⟨s, ⟨_, _, ⟨none, rfl⟩, hl⟩, hlogouts, htoken, fun hf => ?_⟩
  have := hf (by simp [htoken])
  omega

end LiteCode.Session
