import LiteCode.Lib.Bytes
import LiteCode.Lib.ListIndex
import LiteCode.Lib.System

/-!
# Refreshing on a 401

`fetchWithAutoRefresh` and `refreshTokens` of `src/web/js/api.js`, any number of requests at once. A
request whose answer is a `401` asks for a refresh, which all requests share while it is in flight,
and is sent again. One handler catches what goes wrong in both: the refresh, and the request that is
sent again. It forces a sign-out, and its caller gets the `401`.

A step is one callback of a promise, or the start of a call; the answers come in any order. Every
request keeps a log of what has happened to it.

* `State`, `step`: the promises;
* `Trace`: the logs of a request by the point that it has reached, an invariant (`trace_of_reach`);
* `Right`: a sign-out is forced if and only if the refresh has failed, after a refresh the caller
  gets the outcome of the second attempt, and there is at most one refresh and one replay;
* `autoRefresh_right`: it is right exactly as long as no second attempt fails.
-/

namespace LiteCode.AutoRefresh

/-! ## Promises -/

/-- `LitecodeApiError`. -/
structure ApiError where
  status : Nat
  code : Bytes
  message : Bytes
  deriving DecidableEq, Repr

/-- How a promise of `doFetch` is settled: with the answer, or with an error. -/
abbrev Outcome (D : Type) := Except ApiError D

/-- A refresh: the promise that `refreshTokens` makes. -/
inductive Refresh
  | fetching
  /-- It has thrown, and the handler has not run yet. -/
  | thrown (e : ApiError)
  /-- The token is written, and the last callback has not run yet. -/
  | stored
  | fulfilled
  | rejected (e : ApiError)
  deriving DecidableEq, Repr

/-- What the caller asks for. -/
structure Init where
  path : Bytes
  noRetryOn401 : Bool
  deriving DecidableEq, Repr

/-- The error is a `401`, and the request may be sent again. -/
def Init.retryable (init : Init) (e : ApiError) : Bool :=
  e.status == 401 && !init.noRetryOn401 && !(bytes "/auth/refresh").isPrefixOf init.path

/-- The point that a request has reached. The first error is kept for the caller. -/
inductive Phase (D : Type)
  | fetching
  /-- The handler of the first error is to run. -/
  | rejected (e : ApiError)
  /-- It waits for a refresh. -/
  | waiting (e : ApiError) (r : Nat)
  /-- It has been sent again. -/
  | replaying (e : ApiError)
  /-- The handler of what has gone wrong after the first error is to run. -/
  | failing (e refreshErr : ApiError)
  | settled (o : Outcome D)

/-- What has happened to a request. -/
inductive Event (D : Type)
  | answered (o : Outcome D)
  | refreshed (r : Nat)
  | replayed
  | replayAnswered (o : Outcome D)
  | signedOut

variable {D : Type}

/-- The event is a call of `refreshTokens`. -/
def Event.isRefresh : Event D → Bool
  | .refreshed _ => true
  | _ => false

/-- The event is the second call of `doFetch`. -/
def Event.isReplay : Event D → Bool
  | .replayed => true
  | _ => false

/-- A call of `fetchWithAutoRefresh`. -/
structure Request (D : Type) where
  init : Init
  phase : Phase D
  log : List (Event D)

/-- The variables of the module, and the promises. -/
structure State (D : Type) where
  inflightRefresh : Option Nat
  redirectInFlight : Bool
  refreshes : List Refresh
  requests : List (Request D)

/-! ## Functions -/

/-- `refreshTokens`: the promise that it returns. -/
def refreshTokens (s : State D) : State D × Nat :=
  match s.inflightRefresh with
  | some r => (s, r)
  | none =>
    ({ s with
        inflightRefresh := some s.refreshes.length
        refreshes := s.refreshes ++ [.fetching] }, s.refreshes.length)

/-- `forceSignOut`: the page is left. -/
def forceSignOut (s : State D) : State D :=
  if s.redirectInFlight then s else { s with redirectInFlight := true }

/-- A request goes on. -/
def State.setRequest (s : State D) (i : Nat) (q : Request D) (phase : Phase D)
    (events : List (Event D)) : State D :=
  { s with requests := s.requests.set i { q with phase, log := q.log ++ events } }

/-! ## Steps -/

/-- A call is started, an answer comes, or a callback runs. -/
inductive Action (D : Type)
  /-- `refreshTokens` is called by somebody else. -/
  | tryRefresh
  /-- The answer may be in the cache. -/
  | start (init : Init) (cacheHit : Option D)
  | answer (i : Nat) (o : Outcome D)
  | callback (i : Nat)
  /-- A refresh has its token, or it throws. -/
  | refreshAnswer (r : Nat) (o : Except ApiError Unit)
  | refreshSettle (r : Nat)

/-- The answer for a request. -/
def answer (s : State D) (i : Nat) (q : Request D) (o : Outcome D) : Option (State D) :=
  match q.phase with
  | .fetching =>
    match o with
    | .ok d => some (s.setRequest i q (.settled (.ok d)) [.answered o])
    | .error e => some (s.setRequest i q (.rejected e) [.answered o])
  | .replaying e =>
    match o with
    | .ok d => some (s.setRequest i q (.settled (.ok d)) [.replayAnswered o])
    | .error refreshErr => some (s.setRequest i q (.failing e refreshErr) [.replayAnswered o])
  | _ => none

/-- The next callback of a request. -/
def callback (s : State D) (i : Nat) (q : Request D) : Option (State D) :=
  match q.phase with
  | .rejected e =>
    if q.init.retryable e then
      let (s, r) := refreshTokens s
      some (s.setRequest i q (.waiting e r) [.refreshed r])
    else some (s.setRequest i q (.settled (.error e)) [])
  | .waiting e r => s.refreshes[r]?.bind fun x =>
    match x with
    | .fulfilled => some (s.setRequest i q (.replaying e) [.replayed])
    | .rejected refreshErr => some (s.setRequest i q (.failing e refreshErr) [])
    | _ => none
  | .failing e _ => some ((forceSignOut s).setRequest i q (.settled (.error e)) [.signedOut])
  | _ => none

/-- The answer for a refresh. -/
def refreshAnswer (s : State D) (r : Nat) (o : Except ApiError Unit) : State D :=
  match o with
  | .ok () => { s with refreshes := s.refreshes.set r .stored }
  | .error e => { s with refreshes := s.refreshes.set r (.thrown e) }

/-- The handler of a refresh that has thrown, or its last callback. -/
def refreshSettle (s : State D) (r : Nat) : Refresh → Option (State D)
  | .thrown e => some { s with
      inflightRefresh := none, refreshes := s.refreshes.set r (.rejected e) }
  | .stored => some { s with
      inflightRefresh := none, refreshes := s.refreshes.set r .fulfilled }
  | _ => none

/-- One step. -/
def step (s : State D) : Action D → Option (State D)
  | .tryRefresh => some (refreshTokens s).1
  | .start init cacheHit =>
    let phase := match cacheHit with
      | some d => .settled (.ok d)
      | none => .fetching
    some { s with requests := s.requests ++ [⟨init, phase, []⟩] }
  | .answer i o => s.requests[i]?.bind fun q => answer s i q o
  | .callback i => s.requests[i]?.bind fun q => callback s i q
  | .refreshAnswer r o => s.refreshes[r]?.bind fun x =>
    if x = .fetching then some (refreshAnswer s r o) else none
  | .refreshSettle r => s.refreshes[r]?.bind fun x => refreshSettle s r x

/-- A page. -/
def page (D : Type) : System (State D) (Action D) where
  init s := s = ⟨none, false, [], []⟩
  step := step

/-! ## What is meant -/

/-- The promise of the caller is settled. -/
def Request.Settled (q : Request D) : Prop := ∃ o, q.phase = .settled o

/-- The first answer was a `401` for which the request could be sent again, and the refresh has
    failed. -/
def Request.RefreshFailed (refreshes : List Refresh) (q : Request D) : Prop :=
  ∃ e r err, .answered (.error e) ∈ q.log ∧ q.init.retryable e = true ∧ .refreshed r ∈ q.log ∧
    refreshes[r]? = some (.rejected err)

/-- The request had a refresh, and the refresh has succeeded. -/
def Request.Refreshed (refreshes : List Refresh) (q : Request D) : Prop :=
  ∃ r, .refreshed r ∈ q.log ∧ refreshes[r]? = some .fulfilled

/-- A sign-out is forced if and only if the refresh has failed; after a refresh the caller gets the
    outcome of the second attempt; there is at most one refresh, and one second attempt. -/
structure Request.Right (refreshes : List Refresh) (q : Request D) : Prop where
  only : .signedOut ∈ q.log → q.RefreshFailed refreshes
  forced : q.Settled → q.RefreshFailed refreshes → .signedOut ∈ q.log
  outcome : ∀ o, q.phase = .settled o → q.Refreshed refreshes → .replayAnswered o ∈ q.log
  refreshes_le : q.log.countP Event.isRefresh ≤ 1
  replays_le : q.log.countP Event.isReplay ≤ 1

/-- The second attempt has failed. -/
def Request.ReplayFailed (q : Request D) : Prop := ∃ e, .replayAnswered (.error e) ∈ q.log

/-- The request has been sent again. -/
def Request.isReplaying (q : Request D) : Bool :=
  match q.phase with
  | .replaying _ => true
  | _ => false

/-- The answer is not an error for a second attempt. -/
def NoReplayFails (s : State D) : Action D → Prop
  | .answer i (.error _) => ∀ q ∈ s.requests[i]?, q.isReplaying = false
  | _ => True

instance (s : State D) : (a : Action D) → Decidable (NoReplayFails s a)
  | .answer i (.error _) =>
    inferInstanceAs (Decidable (∀ q ∈ s.requests[i]?, q.isReplaying = false))
  | .answer _ (.ok _) | .tryRefresh | .start .. | .callback _ | .refreshAnswer ..
  | .refreshSettle _ => isTrue trivial

/-- The request waits for an answer: its own, or that of its refresh. -/
def Request.Waits (refreshes : List Refresh) (q : Request D) : Prop :=
  match q.phase with
  | .fetching => True
  | .waiting _ r => ∀ x ∈ refreshes[r]?, x ≠ .fulfilled ∧ ∀ e, x ≠ .rejected e
  | .replaying _ => True
  | _ => False

/-! ## The log of a request -/

/-- The log of a request at the points that it may have reached. -/
inductive Trace (refreshes : List Refresh) (init : Init) : Phase D → List (Event D) → Prop
  | fetching : Trace refreshes init .fetching []
  | cached (d : D) : Trace refreshes init (.settled (.ok d)) []
  | ok (d : D) : Trace refreshes init (.settled (.ok d)) [.answered (.ok d)]
  | rejected (e : ApiError) : Trace refreshes init (.rejected e) [.answered (.error e)]
  | passed {e : ApiError} (he : init.retryable e = false) :
      Trace refreshes init (.settled (.error e)) [.answered (.error e)]
  | waiting {e : ApiError} {r : Nat} (he : init.retryable e = true) (hr : r < refreshes.length) :
      Trace refreshes init (.waiting e r) [.answered (.error e), .refreshed r]
  | replaying {e : ApiError} {r : Nat} (he : init.retryable e = true)
      (hr : refreshes[r]? = some .fulfilled) :
      Trace refreshes init (.replaying e) [.answered (.error e), .refreshed r, .replayed]
  | replayed {e : ApiError} {r : Nat} (he : init.retryable e = true)
      (hr : refreshes[r]? = some .fulfilled) (d : D) :
      Trace refreshes init (.settled (.ok d))
        [.answered (.error e), .refreshed r, .replayed, .replayAnswered (.ok d)]
  | refreshFailed {e err : ApiError} {r : Nat} (he : init.retryable e = true)
      (hr : refreshes[r]? = some (.rejected err)) :
      Trace refreshes init (.failing e err) [.answered (.error e), .refreshed r]
  | replayFailed {e : ApiError} {r : Nat} (he : init.retryable e = true)
      (hr : refreshes[r]? = some .fulfilled) (err : ApiError) :
      Trace refreshes init (.failing e err)
        [.answered (.error e), .refreshed r, .replayed, .replayAnswered (.error err)]
  | signedOut {e err : ApiError} {r : Nat} (he : init.retryable e = true)
      (hr : refreshes[r]? = some (.rejected err)) :
      Trace refreshes init (.settled (.error e))
        [.answered (.error e), .refreshed r, .signedOut]
  | lost {e : ApiError} {r : Nat} (he : init.retryable e = true)
      (hr : refreshes[r]? = some .fulfilled) (err : ApiError) :
      Trace refreshes init (.settled (.error e))
        [.answered (.error e), .refreshed r, .replayed, .replayAnswered (.error err), .signedOut]

variable {s s' : State D} {a : Action D} {q : Request D} {i r : Nat} {rs rs' : List Refresh}
  {init : Init} {phase : Phase D} {log : List (Event D)}

theorem Trace.refreshes_le (h : Trace rs init phase log) : log.countP Event.isRefresh ≤ 1 := by
  cases h <;> simp [List.countP_cons, Event.isRefresh]

theorem Trace.replays_le (h : Trace rs init phase log) : log.countP Event.isReplay ≤ 1 := by
  cases h <;> simp [List.countP_cons, Event.isReplay]

/-- The caller of a request that had a refresh gets the answer for the second attempt, or the
    refresh has failed and a sign-out is forced, or the second attempt has failed. -/
theorem Trace.settled_refreshed {o : Outcome D} (h : Trace rs init (.settled o) log)
    (hr : .refreshed r ∈ log) :
    rs[r]? = some .fulfilled ∧ .replayAnswered o ∈ log ∨
      (∃ err, rs[r]? = some (.rejected err)) ∧ .signedOut ∈ log ∨
      rs[r]? = some .fulfilled ∧ ∃ err, .replayAnswered (.error err) ∈ log := by
  cases h with
  | replayed he hfulfilled d =>
    obtain rfl : r = _ := by simpa using hr
    exact .inl ⟨hfulfilled, by simp⟩
  | signedOut he hrejected =>
    obtain rfl : r = _ := by simpa using hr
    exact .inr (.inl ⟨⟨_, hrejected⟩, by simp⟩)
  | lost he hfulfilled err =>
    obtain rfl : r = _ := by simpa using hr
    exact .inr (.inr ⟨hfulfilled, err, by simp⟩)
  | _ => simp at hr

/-- A sign-out is forced when the refresh or the second attempt has failed. -/
theorem Trace.of_signedOut (h : Trace rs q.init q.phase q.log) (hmem : .signedOut ∈ q.log) :
    q.RefreshFailed rs ∨ q.Settled ∧ q.ReplayFailed := by
  obtain ⟨init, phase, log⟩ := q
  cases h with
  | signedOut he hr => exact .inl ⟨_, _, _, by simp, he, by simp, hr⟩
  | lost he hr err => exact .inr ⟨⟨_, rfl⟩, err, by simp⟩
  | _ => simp at hmem

/-- If the second attempt has failed, a sign-out is forced after a refresh that has not. -/
theorem Trace.of_replayFailed (h : Trace rs q.init q.phase q.log) (hs : q.Settled)
    (hf : q.ReplayFailed) : .signedOut ∈ q.log ∧ ¬q.RefreshFailed rs := by
  obtain ⟨init, phase, log⟩ := q
  obtain ⟨o, hphase : phase = .settled o⟩ := hs
  obtain ⟨err, herr⟩ := hf
  cases h with
  | lost he hr err =>
    refine ⟨by simp, ?_⟩
    rintro ⟨_, r, _, -, -, hmem, hrejected⟩
    obtain rfl : r = _ := by simpa using hmem
    rw [hr] at hrejected
    cases hrejected
  | replayFailed => cases hphase
  | _ => simp at herr

/-- A request is right unless it is settled and its second attempt has failed. -/
theorem Trace.right_iff (h : Trace rs q.init q.phase q.log) :
    q.Right rs ↔ (q.Settled → ¬q.ReplayFailed) := by
  constructor
  · intro hright hs hf
    obtain ⟨hmem, hne⟩ := h.of_replayFailed hs hf
    exact hne (hright.only hmem)
  · intro hgood
    refine ⟨fun hmem => ?_, ?_, ?_, h.refreshes_le, h.replays_le⟩
    · exact (h.of_signedOut hmem).resolve_right fun hlost => hgood hlost.1 hlost.2
    · rintro ⟨o, ho⟩ ⟨e, r, err, -, -, hr, hrejected⟩
      rw [ho] at h
      obtain ⟨hfulfilled, -⟩ | ⟨-, hmem⟩ | ⟨-, hf⟩ := h.settled_refreshed hr
      · rw [hfulfilled] at hrejected
        cases hrejected
      · exact hmem
      · exact absurd hf (hgood ⟨o, ho⟩)
    · rintro o ho ⟨r, hr, hfulfilled⟩
      rw [ho] at h
      obtain ⟨-, hmem⟩ | ⟨⟨err, hrejected⟩, -⟩ | ⟨-, hf⟩ := h.settled_refreshed hr
      · exact hmem
      · rw [hrejected] at hfulfilled
        cases hfulfilled
      · exact absurd hf (hgood ⟨o, ho⟩)

/-! ## Refreshes go on -/

/-- The promise is settled. -/
def Refresh.Over : Refresh → Prop
  | .fulfilled | .rejected _ => True
  | _ => False

/-- There may be more refreshes, and those that are settled stay as they are. -/
structure Extends (rs rs' : List Refresh) : Prop where
  length_le : rs.length ≤ rs'.length
  done : ∀ (r : Nat) (x : Refresh), rs[r]? = some x → x.Over → rs'[r]? = some x

theorem Extends.refl (rs : List Refresh) : Extends rs rs := ⟨Nat.le_refl _, fun _ _ h _ => h⟩

theorem extends_concat (rs : List Refresh) (x : Refresh) : Extends rs (rs ++ [x]) where
  length_le := by simp
  done _ _ h _ := getElem?_append_of_some h

/-- A refresh that is not settled goes on. -/
theorem extends_set {x y : Refresh} (hx : rs[r]? = some x) (hover : ¬x.Over) :
    Extends rs (rs.set r y) where
  length_le := by simp
  done j z hz hzover := getElem?_set_of_ne hx hz fun heq => hover (heq ▸ hzover)

/-- The log stays possible. -/
theorem Trace.mono (h : Trace rs init phase log) (hext : Extends rs rs') :
    Trace rs' init phase log := by
  cases h with
  | fetching => exact .fetching
  | cached d => exact .cached d
  | ok d => exact .ok d
  | rejected e => exact .rejected e
  | passed he => exact .passed he
  | waiting he hr => exact .waiting he (Nat.lt_of_lt_of_le hr hext.length_le)
  | replaying he hr => exact .replaying he (hext.done _ _ hr trivial)
  | replayed he hr d => exact .replayed he (hext.done _ _ hr trivial) d
  | refreshFailed he hr => exact .refreshFailed he (hext.done _ _ hr trivial)
  | replayFailed he hr err => exact .replayFailed he (hext.done _ _ hr trivial) err
  | signedOut he hr => exact .signedOut he (hext.done _ _ hr trivial)
  | lost he hr err => exact .lost he (hext.done _ _ hr trivial) err

/-! ## Runs -/

/-- Every request has a log of its point, and the refresh in flight is one of the refreshes. -/
structure Inv (s : State D) : Prop where
  traces : ∀ q ∈ s.requests, Trace s.refreshes q.init q.phase q.log
  inflight : ∀ r ∈ s.inflightRefresh, r < s.refreshes.length

/-- Refreshes go on. -/
theorem Inv.extend (h : Inv s) (hrequests : s'.requests = s.requests)
    (hext : Extends s.refreshes s'.refreshes)
    (hinflight : ∀ r ∈ s'.inflightRefresh, r < s'.refreshes.length) : Inv s' where
  traces q hq := (h.traces q (hrequests ▸ hq)).mono hext
  inflight := hinflight

/-- A request goes on. -/
theorem Inv.setRequest (h : Inv s) {events : List (Event D)}
    (ht : Trace s.refreshes q.init phase (q.log ++ events)) :
    Inv (s.setRequest i q phase events) where
  traces q' hq' := by
    rcases List.mem_or_eq_of_mem_set hq' with hq' | rfl
    · exact h.traces q' hq'
    · exact ht
  inflight := h.inflight

theorem Inv.refreshTokens (h : Inv s) :
    Inv (refreshTokens s).1 ∧ (refreshTokens s).2 < (refreshTokens s).1.refreshes.length ∧
      Extends s.refreshes (AutoRefresh.refreshTokens s).1.refreshes := by
  rw [AutoRefresh.refreshTokens]
  cases hr : s.inflightRefresh with
  | some r => exact ⟨h, h.inflight r hr, .refl _⟩
  | none =>
    have hext := extends_concat s.refreshes .fetching
    have hlt : s.refreshes.length < (s.refreshes ++ [Refresh.fetching]).length := by simp
    refine ⟨h.extend rfl hext fun r hr => ?_, hlt, hext⟩
    obtain rfl := Option.some.inj hr
    exact hlt

theorem Inv.answer (h : Inv s) (hq : q ∈ s.requests) {o : Outcome D}
    (hs : answer s i q o = some s') : Inv s' := by
  have ht := h.traces q hq
  obtain ⟨init, phase, log⟩ := q
  cases phase with
  | fetching =>
    cases ht
    cases o with
    | ok d =>
      cases hs
      exact h.setRequest (.ok d)
    | error e =>
      cases hs
      exact h.setRequest (.rejected e)
  | replaying e =>
    cases ht with
    | replaying he hr =>
      cases o with
      | ok d =>
        cases hs
        exact h.setRequest (.replayed he hr d)
      | error err =>
        cases hs
        exact h.setRequest (.replayFailed he hr err)
  | rejected e => cases hs
  | waiting e r => cases hs
  | failing e err => cases hs
  | settled o => cases hs

theorem inv_forceSignOut (h : Inv s) : Inv (forceSignOut s) := by
  unfold forceSignOut
  split
  · exact h
  · exact ⟨h.traces, h.inflight⟩

theorem refreshes_forceSignOut : (forceSignOut s).refreshes = s.refreshes := by
  unfold forceSignOut
  split <;> rfl

theorem Inv.callback (h : Inv s) (hq : q ∈ s.requests) (hs : callback s i q = some s') :
    Inv s' := by
  have ht := h.traces q hq
  obtain ⟨init, phase, log⟩ := q
  cases phase with
  | rejected e =>
    cases ht
    simp only [AutoRefresh.callback] at hs
    split_ifs at hs with he
    · cases hs
      obtain ⟨hinv, hlt, -⟩ := h.refreshTokens
      exact hinv.setRequest (.waiting he hlt)
    · cases hs
      exact h.setRequest (.passed (Bool.not_eq_true _ ▸ he))
  | waiting e r =>
    obtain ⟨x, hx, hs⟩ := Option.bind_eq_some_iff.1 hs
    cases ht with
    | waiting he hr =>
      cases x with
      | fulfilled =>
        cases hs
        exact h.setRequest (.replaying he hx)
      | rejected err =>
        cases hs
        exact h.setRequest (.refreshFailed he hx)
      | fetching => cases hs
      | thrown err => cases hs
      | stored => cases hs
  | failing e err =>
    cases hs
    have hrefreshes := refreshes_forceSignOut (s := s)
    refine (inv_forceSignOut h).setRequest (hrefreshes.symm ▸ ?_)
    cases ht with
    | refreshFailed he hr => exact .signedOut he hr
    | replayFailed he hr => exact .lost he hr err
  | fetching => cases hs
  | replaying e => cases hs
  | settled o => cases hs

theorem Inv.step (h : Inv s) (hs : step s a = some s') : Inv s' := by
  cases a with
  | tryRefresh =>
    cases hs
    exact h.refreshTokens.1
  | start init cacheHit =>
    cases hs
    refine ⟨forall_mem_concat h.traces ?_, h.inflight⟩
    cases cacheHit with
    | none => exact .fetching
    | some d => exact .cached d
  | answer i o =>
    obtain ⟨q, hq, hs⟩ := Option.bind_eq_some_iff.1 hs
    exact h.answer (List.mem_of_getElem? hq) hs
  | callback i =>
    obtain ⟨q, hq, hs⟩ := Option.bind_eq_some_iff.1 hs
    exact h.callback (List.mem_of_getElem? hq) hs
  | refreshAnswer r o =>
    obtain ⟨x, hx, hs⟩ := Option.bind_eq_some_iff.1 hs
    split_ifs at hs with hfetching
    subst hfetching
    cases hs
    cases o with
    | ok =>
      refine h.extend rfl (extends_set hx nofun) fun r hr => ?_
      simpa [refreshAnswer] using h.inflight r hr
    | error e =>
      refine h.extend rfl (extends_set hx nofun) fun r hr => ?_
      simpa [refreshAnswer] using h.inflight r hr
  | refreshSettle r =>
    obtain ⟨x, hx, hs⟩ := Option.bind_eq_some_iff.1 hs
    cases x with
    | thrown e =>
      cases hs
      exact h.extend rfl (extends_set hx nofun) nofun
    | stored =>
      cases hs
      exact h.extend rfl (extends_set hx nofun) nofun
    | fetching => cases hs
    | fulfilled => cases hs
    | rejected e => cases hs

/-- In every reachable state the requests have a log of their point. -/
theorem inv_of_reach {G : State D → Action D → Prop} (h : (page D).Reach G s) : Inv s := by
  refine h.invariant ?_ fun t b t' ht _ hs => ht.step hs
  rintro _ rfl
  exact ⟨fun _ hq => absurd hq List.not_mem_nil, nofun⟩

/-- A request that is not settled waits for an answer, or its next callback can run. -/
theorem Inv.goes_on (h : Inv s) (hq : s.requests[i]? = some q) :
    q.Settled ∨ q.Waits s.refreshes ∨ ((page D).step s (.callback i)).isSome = true := by
  have hcallback : (page D).step s (.callback i) = AutoRefresh.callback s i q :=
    (congrArg (Option.bind · _) hq).trans (Option.bind_some ..)
  have ht := h.traces q (List.mem_of_getElem? hq)
  rw [hcallback]
  obtain ⟨init, phase, log⟩ := q
  cases phase with
  | fetching => exact .inr (.inl trivial)
  | replaying e => exact .inr (.inl trivial)
  | settled o => exact .inl ⟨o, rfl⟩
  | rejected e =>
    refine .inr (.inr ?_)
    simp only [AutoRefresh.callback]
    split_ifs <;> rfl
  | failing e err => exact .inr (.inr rfl)
  | waiting e r =>
    cases ht with
    | waiting he hr =>
      obtain ⟨x, hx⟩ : ∃ x, s.refreshes[r]? = some x := ⟨_, List.getElem?_eq_getElem hr⟩
      simp only [Request.Waits, AutoRefresh.callback, hx, Option.bind_some, Option.mem_def,
        Option.some.injEq, forall_eq']
      cases x with
      | fulfilled => exact .inr (.inr rfl)
      | rejected err => exact .inr (.inr rfl)
      | fetching => exact .inr (.inl ⟨nofun, nofun⟩)
      | thrown err => exact .inr (.inl ⟨nofun, nofun⟩)
      | stored => exact .inr (.inl ⟨nofun, nofun⟩)

/-- No second attempt has failed. -/
def NoneFailed (s : State D) : Prop := ∀ q ∈ s.requests, ¬q.ReplayFailed

theorem NoneFailed.setRequest (h : NoneFailed s) (hq : q ∈ s.requests) {events : List (Event D)}
    (hevents : ∀ e, .replayAnswered (.error e) ∉ events) :
    NoneFailed (s.setRequest i q phase events) := by
  intro q' hq'
  rcases List.mem_or_eq_of_mem_set hq' with hq' | rfl
  · exact h q' hq'
  · rintro ⟨e, he⟩
    rcases List.mem_append.1 he with he | he
    · exact h q hq ⟨e, he⟩
    · exact hevents e he

theorem requests_refreshTokens : (refreshTokens s).1.requests = s.requests := by
  unfold refreshTokens
  split <;> rfl

theorem requests_forceSignOut : (forceSignOut s).requests = s.requests := by
  unfold forceSignOut
  split <;> rfl

/-- A callback tells of no answer. -/
theorem NoneFailed.callback (h : NoneFailed s) (hq : q ∈ s.requests)
    (hs : callback s i q = some s') : NoneFailed s' := by
  obtain ⟨init, phase, log⟩ := q
  cases phase with
  | rejected e =>
    simp only [AutoRefresh.callback] at hs
    split_ifs at hs with he
    · cases hs
      have hsame := requests_refreshTokens (s := s)
      exact NoneFailed.setRequest (fun q hq => h q (hsame ▸ hq)) (hsame.symm ▸ hq) (by simp)
    · cases hs
      exact h.setRequest hq (by simp)
  | waiting e r =>
    obtain ⟨x, -, hs⟩ := Option.bind_eq_some_iff.1 hs
    cases x <;> cases hs <;> exact h.setRequest hq (by simp)
  | failing e err =>
    cases hs
    have hsame := requests_forceSignOut (s := s)
    exact NoneFailed.setRequest (fun q hq => h q (hsame ▸ hq)) (hsame.symm ▸ hq) (by simp)
  | fetching => cases hs
  | replaying e => cases hs
  | settled o => cases hs

/-- An answer that is not an error for a second attempt. -/
theorem NoneFailed.answer (h : NoneFailed s) (hq : s.requests[i]? = some q) {o : Outcome D}
    (hg : NoReplayFails s (.answer i o)) (hs : answer s i q o = some s') : NoneFailed s' := by
  have hmem := List.mem_of_getElem? hq
  obtain ⟨init, phase, log⟩ := q
  cases phase with
  | fetching => cases o <;> cases hs <;> exact h.setRequest hmem (by simp)
  | replaying e =>
    cases o with
    | ok d =>
      cases hs
      exact h.setRequest hmem (by simp)
    | error err => exact absurd (hg _ hq) Bool.noConfusion
  | rejected e => cases hs
  | waiting e r => cases hs
  | failing e err => cases hs
  | settled o => cases hs

theorem NoneFailed.step (h : NoneFailed s) (hg : NoReplayFails s a) (hs : step s a = some s') :
    NoneFailed s' := by
  cases a with
  | tryRefresh =>
    cases hs
    exact fun q hq => h q (requests_refreshTokens ▸ hq)
  | start init cacheHit =>
    cases hs
    exact forall_mem_concat h fun ⟨e, he⟩ => absurd he List.not_mem_nil
  | answer i o =>
    obtain ⟨q, hq, hs⟩ := Option.bind_eq_some_iff.1 hs
    exact h.answer hq hg hs
  | callback i =>
    obtain ⟨q, hq, hs⟩ := Option.bind_eq_some_iff.1 hs
    exact h.callback (List.mem_of_getElem? hq) hs
  | refreshAnswer r o =>
    obtain ⟨x, -, hs⟩ := Option.bind_eq_some_iff.1 hs
    split_ifs at hs
    cases hs
    cases o <;> exact h
  | refreshSettle r =>
    obtain ⟨x, -, hs⟩ := Option.bind_eq_some_iff.1 hs
    cases x <;> cases hs <;> exact h

/-- In every run in which no second attempt fails, every request is right; in any run, exactly
    those are not that are settled and whose second attempt has failed. A request that is not
    settled waits for an answer, or goes on. -/
theorem autoRefresh_right (s : State D) (h : (page D).Reach System.Always s) :
    ((page D).Reach NoReplayFails s → ∀ q ∈ s.requests, q.Right s.refreshes) ∧
      (∀ q ∈ s.requests, q.Right s.refreshes ↔ (q.Settled → ¬q.ReplayFailed)) ∧
      ∀ i q, s.requests[i]? = some q →
        q.Settled ∨ q.Waits s.refreshes ∨ ((page D).step s (.callback i)).isSome = true := by
  have hinv := inv_of_reach h
  refine ⟨fun hgood q hq => ?_, fun q hq => (hinv.traces q hq).right_iff,
    fun i q hq => hinv.goes_on hq⟩
  have hnone : NoneFailed s := by
    refine hgood.invariant ?_ fun t b t' ht hg hs => ht.step hg hs
    rintro _ rfl
    exact fun _ hq => absurd hq List.not_mem_nil
  exact (hinv.traces q hq).right_iff.2 fun _ => hnone q hq

/-- A first visit, with one request. -/
def newPage : State Nat := ⟨none, false, [], []⟩

def profile : Init := ⟨bytes "/auth/profile", false⟩

def unauthorized : ApiError := ⟨401, bytes "UNAUTHORIZED", bytes "token expired"⟩

def notFound : ApiError := ⟨404, bytes "NOT_FOUND", bytes "no such page"⟩

/-- A request whose token has expired, up to the second attempt. -/
def expired : List (Action Nat) := [.start profile none, .answer 0 (.error unauthorized),
  .callback 0, .refreshAnswer 0 (.ok ()), .refreshSettle 0, .callback 0]

/-- The second attempt succeeds. -/
theorem autoRefresh_right_profile : ∃ s : State Nat, (page Nat).Reach NoReplayFails s ∧
    (∃ q ∈ s.requests, q.phase = .settled (.ok 7) ∧ q.Refreshed s.refreshes) ∧
      ∀ q ∈ s.requests, q.Right s.refreshes := by
  have hrun : (page Nat).runGuarded NoReplayFails newPage (expired ++ [.answer 0 (.ok 7)]) =
      some ⟨none, false, [.fulfilled], [⟨profile, .settled (.ok 7),
        [.answered (.error unauthorized), .refreshed 0, .replayed,
          .replayAnswered (.ok 7)]⟩]⟩ := rfl
  have hreach := System.reach_of_runGuarded (.init rfl) hrun
  have hright := autoRefresh_right _ (hreach.mono fun _ _ _ => trivial)
  exact ⟨_, hreach, ⟨_, List.mem_singleton_self _, rfl, 0, by simp, rfl⟩, hright.1 hreach⟩

/-- The second attempt is answered with a `404`, and the user is signed out although the refresh has
    succeeded; the caller gets the `401`. -/
theorem signed_out_by_replay : ∃ s : State Nat, (page Nat).Reach System.Always s ∧
    ∃ q ∈ s.requests, q.phase = .settled (.error unauthorized) ∧ q.Refreshed s.refreshes ∧
      .signedOut ∈ q.log ∧ ¬q.Right s.refreshes := by
  have hrun : (page Nat).run newPage
      (expired ++ [.answer 0 (.error notFound), .callback 0]) =
      some ⟨none, true, [.fulfilled], [⟨profile, .settled (.error unauthorized),
        [.answered (.error unauthorized), .refreshed 0, .replayed,
          .replayAnswered (.error notFound), .signedOut]⟩]⟩ := rfl
  have hreach := System.reach_of_run (.init rfl) hrun
  refine ⟨_, hreach, _, List.mem_singleton_self _, rfl, ⟨0, by simp, rfl⟩, by simp, ?_⟩
  intro hright
  have htrace := (inv_of_reach hreach).traces _ (List.mem_singleton_self _)
  exact htrace.right_iff.1 hright ⟨_, rfl⟩ ⟨notFound, by simp⟩

end LiteCode.AutoRefresh
