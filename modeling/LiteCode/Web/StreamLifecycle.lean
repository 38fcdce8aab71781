import LiteCode.Lib.System
import LiteCode.Web.EventStream

/-!
# The life of a stream

`openSse` of `web/js/api.js` for one stream, with what its caller does: `close()`, and an abort by
the signal of the caller. Both abort the request, and so does the timer, but only `close()` sets the
flag `closed`. A step is the next part of a callback that calls no more than one handler, or
something from outside; what is outside comes in any order, also while a handler is running. A
promise that is settled keeps its result when the request is aborted after that.

Every stream keeps a log of the calls of its handlers, and of `close()`.

* `State`, `step`: the promises of a stream, and what it does with their results;
* `Proper`: the contract. `onClose` is called once at the end, no handler after it, none but
  `onClose` after `close()`, and an end that comes from the caller is no error;
* `Orderly`: a step that keeps it. The others are: the body of an error cannot be read; a response
  or an event is handled after `close()`; the rejection that comes from the signal of the caller is
  handled without `close()`;
* `proper_of_reach`: in a run of orderly steps the contract holds, and any other step breaks it.
-/

namespace LiteCode.StreamLifecycle

open EventStream (Codec dispatchFrame parseSseFrame parseSseFrames)

/-! ## Streams -/

/-- Who has aborted the request. -/
inductive Source
  | caller
  | timer
  | close
  deriving DecidableEq, Repr

/-- What the promise of `fetch` is settled with. -/
inductive Fetched
  /-- `streaming` says whether the body has a reader. -/
  | response (status : Nat) (streaming : Bool)
  /-- With who has aborted it, if it was aborted. -/
  | rejected (source : Option Source)
  deriving DecidableEq, Repr

/-- What the promise of `read` is settled with. -/
inductive Read
  | chunk (text : Units)
  | done
  | rejected (source : Option Source)
  deriving DecidableEq, Repr

/-- The point that a stream has reached, with the result of the promise that it waits for, once
    there is one. -/
inductive Phase
  | fetching (result : Option Fetched)
  /-- The body of a response that is not ok; `some false` is a failure. -/
  | readingError (status : Nat) (result : Option Bool)
  /-- `onOpen` has been called. -/
  | opened (streaming : Bool)
  | reading (buffer : Units) (result : Option Read)
  /-- In the loop over the frames of a chunk. -/
  | dispatching (frames : List Units) (rest : Units)
  /-- `onClose` is to be called. -/
  | ending
  | finished
  deriving DecidableEq, Repr

/-- What is told with `onError`. -/
inductive Cause
  | answer (status : Nat)
  | unsupported
  /-- The request is rejected, with who has aborted it. -/
  | ended (source : Option Source)
  deriving DecidableEq, Repr

variable {J V : Type}

/-- A call of a handler, or the first call of `close()`. -/
inductive Event (V : Type)
  | closed
  | onOpen
  /-- For a frame. -/
  | frame (c : EventStream.Call V)
  | onError (cause : Cause)
  | onClose
  deriving DecidableEq, Repr

/-- The event is the call of a handler. -/
def Event.isHandler : Event V → Bool
  | .closed => false
  | _ => true

/-- The event is the call of `onClose`. -/
def Event.isClose : Event V → Bool
  | .onClose => true
  | _ => false

/-- The variables of a stream, and what its handlers have been called with. -/
structure State (V : Type) where
  abortedBy : Option Source
  /-- The timer is running. -/
  timer : Bool
  closed : Bool
  phase : Phase
  log : List (Event V)
  deriving DecidableEq, Repr

/-! ## Steps -/

/-- `ctrl.abort()`; later calls do nothing. -/
def abort (s : State V) (source : Source) : State V :=
  { s with abortedBy := s.abortedBy.or (some source) }

/-- `close`. -/
def close (s : State V) : State V :=
  if s.closed then s
  else { abort s .close with closed := true, timer := false, log := s.log ++ [.closed] }

/-- A stream goes on after these calls. -/
def State.emit (s : State V) (phase : Phase) (events : List (Event V)) : State V :=
  { s with phase, log := s.log ++ events }

/-- `emitError`. -/
def emitError (s : State V) (cause : Cause) : List (Event V) :=
  if s.closed then [] else [.onError cause]

section

variable (json : Codec J V)

/-- The calls for a frame. -/
def frameEvents (frame : Units) : List (Event V) :=
  (dispatchFrame json (parseSseFrame frame)).map .frame

/-- The next part of a callback. -/
def run (s : State V) : Option (State V) :=
  match s.phase with
  | .fetching none => none
  | .fetching (some (.response status streaming)) =>
    let s := { s with timer := false }
    if 200 ≤ status ∧ status ≤ 299 then some (s.emit (.opened streaming) [.onOpen])
    else some (s.emit (.readingError status none) [])
  | .fetching (some (.rejected source)) =>
    let s := { s with timer := false }
    some (s.emit .ending (emitError s (.ended source)))
  | .readingError _ none => none
  | .readingError status (some true) => some (s.emit .ending (emitError s (.answer status)))
  -- nobody handles the rejection of `text()`
  | .readingError _ (some false) => some (s.emit .finished [])
  | .opened true => some (s.emit (.reading [] none) [])
  | .opened false => some (s.emit .ending (emitError s .unsupported))
  | .reading _ none => none
  | .reading buffer (some (.chunk text)) =>
    let parsed := parseSseFrames (buffer ++ text)
    some (s.emit (.dispatching parsed.frames parsed.rest) [])
  | .reading buffer (some .done) =>
    some (s.emit .ending (if buffer = [] then [] else frameEvents json buffer))
  | .reading _ (some (.rejected source)) => some (s.emit .ending (emitError s (.ended source)))
  | .dispatching [] rest => some (s.emit (.reading rest none) [])
  | .dispatching (frame :: frames) rest =>
    some (s.emit (.dispatching frames rest) (frameEvents json frame))
  | .ending => some (s.emit .finished [.onClose])
  | .finished => none

/-- Something from outside, or a part of a callback. -/
inductive Action
  | close
  | callerAbort
  | timeout
  | fetched (r : Fetched)
  /-- The body of an error is there, or it cannot be read. -/
  | bodyRead (ok : Bool)
  | read (r : Read)
  | run
  deriving DecidableEq, Repr

/-- The result of `fetch` may come now: after an abort it can only be the rejection. -/
def Fetched.admitted (abortedBy : Option Source) : Fetched → Bool
  | .response .. => abortedBy.isNone
  | .rejected source => source == abortedBy

/-- The result of a `read` may come now. A body that has ended or failed before an abort is not
    changed by it, and what it has not given yet is lost. -/
def Read.admitted (abortedBy : Option Source) : Read → Bool
  | .chunk _ => abortedBy.isNone
  | .done => true
  | .rejected source => source.isNone || source == abortedBy

/-- One step. -/
def step (s : State V) : Action → Option (State V)
  | .close => some (StreamLifecycle.close s)
  | .callerAbort => some (abort s .caller)
  | .timeout => if s.timer then some (abort { s with timer := false } .timer) else none
  | .fetched r =>
    if s.phase = .fetching none ∧ r.admitted s.abortedBy = true then
      some { s with phase := .fetching (some r) }
    else none
  | .bodyRead ok =>
    match s.phase with
    | .readingError status none => some { s with phase := .readingError status (some ok) }
    | _ => none
  | .read r =>
    match s.phase with
    | .reading buffer none =>
      if r.admitted s.abortedBy = true then some { s with phase := .reading buffer (some r) }
      else none
    | _ => none
  | .run => StreamLifecycle.run json s

/-- A stream, for a signal that has not been aborted, or for one that has. -/
def stream : System (State V) Action where
  init s := (∃ timer, s = ⟨none, timer, false, .fetching none, []⟩) ∨
    s = ⟨none, false, false, .finished, [.onClose]⟩
  step := step json

/-! ## The contract -/

/-- `onClose` is called once, and at the end; no handler is called after it, and none but `onClose`
    after `close()`; an end that comes from the caller is no error. -/
structure Proper (s : State V) : Prop where
  closes : s.log.countP Event.isClose = if s.phase = .finished then 1 else 0
  last : s.log.Pairwise fun a b => a = .onClose → b.isHandler = false
  silent : s.log.Pairwise fun a b => a = .closed → b.isHandler = true → b = .onClose
  quiet : ∀ source, .onError (.ended (some source)) ∈ s.log → source = .timer

/-- A step that keeps the contract. -/
def Orderly (s : State V) : Action → Prop
  | .run =>
    match s.phase with
    | .fetching (some (.response status _)) => 200 ≤ status ∧ status ≤ 299 → s.closed = false
    | .fetching (some (.rejected source)) => source = some .caller → s.closed = true
    | .readingError _ (some false) => False
    | .reading buffer (some .done) => buffer ≠ [] → s.closed = true → frameEvents json buffer = []
    | .reading _ (some (.rejected source)) => source = some .caller → s.closed = true
    | .dispatching (frame :: _) _ => s.closed = true → frameEvents json frame = []
    | _ => True
  | _ => True

instance : ∀ (s : State V) (a : Action), Decidable (Orderly json s a)
  | ⟨_, _, closed, .fetching (some (.response status _)), _⟩, .run =>
    inferInstanceAs (Decidable (200 ≤ status ∧ status ≤ 299 → closed = false))
  | ⟨_, _, closed, .fetching (some (.rejected source)), _⟩, .run =>
    inferInstanceAs (Decidable (source = some .caller → closed = true))
  | ⟨_, _, _, .readingError _ (some false), _⟩, .run => isFalse id
  | ⟨_, _, closed, .reading buffer (some .done), _⟩, .run =>
    inferInstanceAs (Decidable (buffer ≠ [] → closed = true → frameEvents json buffer = []))
  | ⟨_, _, closed, .reading _ (some (.rejected source)), _⟩, .run =>
    inferInstanceAs (Decidable (source = some .caller → closed = true))
  | ⟨_, _, closed, .dispatching (frame :: _) _, _⟩, .run =>
    inferInstanceAs (Decidable (closed = true → frameEvents json frame = []))
  | ⟨_, _, _, .fetching none, _⟩, .run | ⟨_, _, _, .readingError _ none, _⟩, .run
  | ⟨_, _, _, .readingError _ (some true), _⟩, .run | ⟨_, _, _, .opened _, _⟩, .run
  | ⟨_, _, _, .reading _ none, _⟩, .run | ⟨_, _, _, .reading _ (some (.chunk _)), _⟩, .run
  | ⟨_, _, _, .dispatching [] _, _⟩, .run | ⟨_, _, _, .ending, _⟩, .run
  | ⟨_, _, _, .finished, _⟩, .run => isTrue trivial
  | _, .close | _, .callerAbort | _, .timeout | _, .fetched _ | _, .bodyRead _ | _, .read _ =>
    isTrue trivial

end

/-- The stream waits for the network. -/
def State.Waits (s : State V) : Prop :=
  match s.phase with
  | .fetching none | .readingError _ none | .reading _ none => True
  | _ => False

/-! ## What holds in every state -/

/-- Who has aborted the request, if the result is a rejection for that. -/
def Phase.rejectedBy : Phase → Option Source
  | .fetching (some (.rejected source)) => source
  | .reading _ (some (.rejected source)) => source
  | _ => none

/-- The flag says that `close()` has been called, and a request that `close()` has aborted is one
    for which it has been called. -/
structure Inv (s : State V) : Prop where
  closed : s.closed = true ↔ .closed ∈ s.log
  source : s.abortedBy = some .close → s.closed = true
  stored : s.phase.rejectedBy = some .close → s.closed = true

variable {json : Codec J V} {s s' : State V} {a : Action} {phase : Phase} {events : List (Event V)}

theorem inv_init (h : (stream json).init s) : Inv s := by
  obtain ⟨timer, rfl⟩ | rfl := h
  · exact ⟨by simp, nofun, nofun⟩
  · exact ⟨by simp, nofun, nofun⟩

theorem Inv.abort (h : Inv s) {source : Source} (hsource : source ≠ .close) :
    Inv (abort s source) where
  closed := h.closed
  source := by
    intro hs
    cases hby : s.abortedBy with
    | none =>
      simp only [StreamLifecycle.abort, hby, Option.none_or] at hs
      exact absurd (Option.some.inj hs) hsource
    | some source' =>
      simp only [StreamLifecycle.abort, hby, Option.some_or] at hs
      exact h.source (hby.trans hs)
  stored := h.stored

theorem Inv.close (h : Inv s) : Inv (close s) := by
  unfold StreamLifecycle.close
  split
  · exact h
  · exact ⟨by simp, fun _ => rfl, fun _ => rfl⟩

/-- The calls of a step that are no calls of `close()`. -/
theorem Inv.emit (h : Inv s) (hevents : .closed ∉ events)
    (hphase : phase.rejectedBy = some .close → s.closed = true) : Inv (s.emit phase events) where
  closed := by
    rw [State.emit, List.mem_append, or_iff_left hevents]
    exact h.closed
  source := h.source
  stored := hphase

theorem Inv.timer (h : Inv s) (timer : Bool) : Inv { s with timer } :=
  ⟨h.closed, h.source, h.stored⟩

/-- A result comes. -/
theorem Inv.result (h : Inv s) (hphase : phase.rejectedBy = some .close → s.closed = true) :
    Inv { s with phase } := ⟨h.closed, h.source, hphase⟩

/-! ## The calls of a step -/

/-- The call of a handler that is not `onClose`. -/
def Event.isCall : Event V → Bool
  | .closed => false
  | .onClose => false
  | _ => true

theorem isCall_emitError (s : State V) (cause : Cause) :
    ∀ e ∈ emitError s cause, e.isCall = true := by
  intro e he
  unfold emitError at he
  split at he
  · cases he
  · rw [List.mem_singleton.1 he]
    rfl

theorem isCall_frameEvents (json : Codec J V) (frame : Units) :
    ∀ e ∈ frameEvents json frame, e.isCall = true := by
  intro e he
  obtain ⟨c, -, rfl⟩ := List.mem_map.1 he
  rfl

theorem ne_of_isCall {e : Event V} (h : e.isCall = true) :
    e ≠ .closed ∧ e ≠ .onClose ∧ e.isHandler = true ∧ e.isClose = false := by
  cases e with
  | closed => cases h
  | onClose => cases h
  | onOpen => exact ⟨nofun, nofun, rfl, rfl⟩
  | frame c => exact ⟨nofun, nofun, rfl, rfl⟩
  | onError cause => exact ⟨nofun, nofun, rfl, rfl⟩

/-- `onClose` has not been called before the end. -/
theorem Proper.onClose_notMem (h : Proper s) (hs : s.phase ≠ .finished) : .onClose ∉ s.log := by
  have hcount := h.closes
  rw [if_neg hs, List.countP_eq_zero] at hcount
  exact fun hmem => hcount _ hmem rfl

/-- The contract after calls of handlers that are not `onClose`: there are none after `close()`, and
    none for an end that comes from the caller. -/
theorem Proper.emit_iff (h : Proper s) (hi : Inv s) (hs : s.phase ≠ .finished)
    (hphase : phase ≠ .finished) (hevents : ∀ e ∈ events, e.isCall = true) :
    Proper (s.emit phase events) ↔ (s.closed = true → events = []) ∧
      ∀ source, .onError (.ended (some source)) ∈ events → source = .timer := by
  constructor
  · intro hproper
    refine ⟨fun hclosed => ?_, fun source hmem => ?_⟩
    · refine List.eq_nil_iff_forall_not_mem.2 fun e he => ?_
      obtain ⟨-, hne, hhandler, -⟩ := ne_of_isCall (hevents e he)
      have hcross := (List.pairwise_append.1 hproper.silent).2.2 .closed (hi.closed.1 hclosed) e he
      exact hne (hcross rfl hhandler)
    · exact hproper.quiet source (List.mem_append_right _ hmem)
  · rintro ⟨hnil, hquiet⟩
    constructor
    · have hnone : events.countP Event.isClose = 0 :=
        List.countP_eq_zero.2 fun e he => by
          rw [(ne_of_isCall (hevents e he)).2.2.2]
          exact Bool.false_ne_true
      have hcount := h.closes
      rw [if_neg hs] at hcount
      rw [State.emit, List.countP_append, hcount, hnone, if_neg hphase]
    · refine List.pairwise_append.2 ⟨h.last, ?_, fun a ha b _ heq => ?_⟩
      · exact List.pairwise_of_forall_mem_list fun a ha b _ heq =>
          absurd heq (ne_of_isCall (hevents a ha)).2.1
      · exact absurd (heq ▸ ha) (h.onClose_notMem hs)
    · refine List.pairwise_append.2 ⟨h.silent, ?_, fun a ha b hb heq => ?_⟩
      · exact List.pairwise_of_forall_mem_list fun a ha b _ heq =>
          absurd heq (ne_of_isCall (hevents a ha)).1
      · rw [hnil (hi.closed.2 (heq ▸ ha))] at hb
        cases hb
    · intro source hmem
      rcases List.mem_append.1 hmem with hmem | hmem
      · exact h.quiet source hmem
      · exact hquiet source hmem

theorem Proper.timer (h : Proper s) (timer : Bool) : Proper { s with timer } :=
  ⟨h.closes, h.last, h.silent, h.quiet⟩

/-- A result comes. -/
theorem Proper.result (h : Proper s) (hs : s.phase ≠ .finished) (hphase : phase ≠ .finished) :
    Proper { s with phase } where
  closes := by
    have hcount := h.closes
    rw [if_neg hs] at hcount
    exact hcount.trans (if_neg hphase).symm
  last := h.last
  silent := h.silent
  quiet := h.quiet

/-- No handler is called. -/
theorem Proper.emit_nil (h : Proper s) (hi : Inv s) (hs : s.phase ≠ .finished)
    (hphase : phase ≠ .finished) : Proper (s.emit phase []) :=
  (h.emit_iff hi hs hphase fun _ he => absurd he List.not_mem_nil).2
    ⟨fun _ => rfl, fun _ he => absurd he List.not_mem_nil⟩

/-- An error is told, unless `close()` has been called. -/
theorem Proper.emitError_iff (h : Proper s) (hi : Inv s) (hs : s.phase ≠ .finished)
    {source : Option Source} (hstored : source = some .close → s.closed = true) :
    Proper (s.emit .ending (emitError s (.ended source))) ↔
      (source = some .caller → s.closed = true) := by
  have hne : Phase.ending ≠ .finished := nofun
  rw [h.emit_iff hi hs hne (isCall_emitError s _)]
  unfold StreamLifecycle.emitError
  cases hclosed : s.closed with
  | true => simp
  | false =>
    rw [hclosed] at hstored
    cases source with
    | none => simp
    | some source =>
      cases source with
      | caller => simp
      | timer => simp
      | close => exact absurd (hstored rfl) Bool.false_ne_true

/-- An error that is no end of the connection may be told. -/
theorem Proper.emitError (h : Proper s) (hi : Inv s) (hs : s.phase ≠ .finished) {cause : Cause}
    (hcause : ∀ source, cause ≠ .ended source) : Proper (s.emit .ending (emitError s cause)) := by
  have hne : Phase.ending ≠ .finished := nofun
  rw [h.emit_iff hi hs hne (isCall_emitError s _)]
  unfold StreamLifecycle.emitError
  split
  · exact ⟨fun _ => rfl, fun _ he => absurd he List.not_mem_nil⟩
  · rename_i hclosed
    refine ⟨fun h => absurd h hclosed, fun source hmem => ?_⟩
    exact absurd (Event.onError.inj (List.mem_singleton.1 hmem)).symm (hcause _)

/-- A frame calls its handler, also after `close()`. -/
theorem Proper.frame_iff (h : Proper s) (hi : Inv s) (hs : s.phase ≠ .finished)
    (hphase : phase ≠ .finished) (frame : Units) : Proper (s.emit phase (frameEvents json frame)) ↔
      (s.closed = true → frameEvents json frame = []) := by
  rw [h.emit_iff hi hs hphase (isCall_frameEvents json frame)]
  refine and_iff_left fun source hmem => ?_
  obtain ⟨c, -, hc⟩ := List.mem_map.1 hmem
  cases hc

/-- The headers have arrived. -/
theorem Proper.onOpen_iff (h : Proper s) (hi : Inv s) (hs : s.phase ≠ .finished)
    {streaming : Bool} : Proper (s.emit (.opened streaming) [.onOpen]) ↔ s.closed = false := by
  have hne : Phase.opened streaming ≠ .finished := nofun
  rw [h.emit_iff hi hs hne fun e he => by rw [List.mem_singleton.1 he]; rfl]
  cases s.closed with
  | true => simp
  | false => simp

/-- The last call. -/
theorem Proper.onClose (h : Proper s) (hs : s.phase ≠ .finished) :
    Proper (s.emit .finished [.onClose]) where
  closes := by
    have hcount := h.closes
    rw [if_neg hs] at hcount
    rw [State.emit, List.countP_append, hcount]
    rfl
  last := by
    refine List.pairwise_append.2 ⟨h.last, List.pairwise_singleton _ _, fun a ha b _ heq => ?_⟩
    exact absurd (heq ▸ ha) (h.onClose_notMem hs)
  silent := by
    refine List.pairwise_append.2 ⟨h.silent, List.pairwise_singleton _ _, fun a _ b hb _ _ => ?_⟩
    exact List.mem_singleton.1 hb
  quiet source hmem := by
    rcases List.mem_append.1 hmem with hmem | hmem
    · exact h.quiet source hmem
    · cases List.mem_singleton.1 hmem

/-- A stream that is over without the last call. -/
theorem Proper.lost (h : Proper s) (hs : s.phase ≠ .finished) : ¬Proper (s.emit .finished []) := by
  intro hproper
  have hcount := h.closes
  have hlost := hproper.closes
  rw [if_neg hs] at hcount
  rw [State.emit, List.append_nil, if_pos rfl, hcount] at hlost
  cases hlost

/-! ## Parts of a callback -/

/-- What a part of a callback does, and when it is orderly. -/
inductive Part (json : Codec J V) (s : State V) : State V → Prop
  /-- No handler is called. -/
  | silent (timer : Bool) {phase : Phase} (hne : phase ≠ .finished)
      (hnone : phase.rejectedBy = none) (horderly : Orderly json s .run) :
      Part json s (State.emit { s with timer } phase [])
  | opens (timer : Bool) {streaming : Bool} (horderly : Orderly json s .run ↔ s.closed = false) :
      Part json s (State.emit { s with timer } (.opened streaming) [.onOpen])
  /-- An answer is told that is no stream. -/
  | refuses {cause : Cause} (hcause : ∀ source, cause ≠ .ended source)
      (horderly : Orderly json s .run) : Part json s (s.emit .ending (emitError s cause))
  /-- A rejection is handled. -/
  | breaks (timer : Bool) {source : Option Source} (hstored : s.phase.rejectedBy = source)
      (horderly : Orderly json s .run ↔ (source = some .caller → s.closed = true)) :
      Part json s (State.emit { s with timer } .ending (emitError s (.ended source)))
  | dispatches {phase : Phase} (frame : Units) (hne : phase ≠ .finished)
      (hnone : phase.rejectedBy = none)
      (horderly : Orderly json s .run ↔ (s.closed = true → frameEvents json frame = [])) :
      Part json s (s.emit phase (frameEvents json frame))
  | ends (horderly : Orderly json s .run) : Part json s (s.emit .finished [.onClose])
  /-- The body of an error cannot be read. -/
  | loses (horderly : ¬Orderly json s .run) : Part json s (s.emit .finished [])

theorem ne_finished_of_run (hs : run json s = some s') : s.phase ≠ .finished := by
  intro hp
  rw [run, hp] at hs
  cases hs

theorem part_of_run (hs : run json s = some s') : Part json s s' := by
  cases hp : s.phase with
  | fetching result =>
    rcases result with - | ⟨status, streaming⟩ | source
    · rw [run, hp] at hs
      cases hs
    · simp only [run, hp] at hs
      split_ifs at hs with hok
      · cases hs
        exact .opens false (by simp only [Orderly, hp, imp_iff_right hok])
      · cases hs
        exact .silent false nofun rfl (by simp only [Orderly, hp]; exact fun h => absurd h hok)
    · rw [run, hp] at hs
      cases hs
      exact .breaks false (by rw [hp, Phase.rejectedBy]) (by simp only [Orderly, hp])
  | readingError status result =>
    rcases result with - | - | -
    · rw [run, hp] at hs
      cases hs
    · rw [run, hp] at hs
      cases hs
      exact .loses (by simp only [Orderly, hp, not_false_eq_true])
    · rw [run, hp] at hs
      cases hs
      exact .refuses nofun (by simp only [Orderly, hp])
  | opened streaming =>
    cases streaming with
    | true =>
      rw [run, hp] at hs
      cases hs
      exact .silent s.timer nofun rfl (by simp only [Orderly, hp])
    | false =>
      rw [run, hp] at hs
      cases hs
      exact .refuses nofun (by simp only [Orderly, hp])
  | reading buffer result =>
    rcases result with - | text | - | source
    · rw [run, hp] at hs
      cases hs
    · rw [run, hp] at hs
      cases hs
      exact .silent s.timer nofun rfl (by simp only [Orderly, hp])
    · simp only [run, hp] at hs
      split_ifs at hs with hbuffer
      · cases hs
        exact .silent s.timer nofun rfl
          (by simp only [Orderly, hp]; exact fun hne => absurd hbuffer hne)
      · cases hs
        exact .dispatches buffer nofun rfl (by simp only [Orderly, hp]; exact imp_iff_right hbuffer)
    · rw [run, hp] at hs
      cases hs
      exact .breaks s.timer (by rw [hp, Phase.rejectedBy]) (by simp only [Orderly, hp])
  | dispatching frames rest =>
    cases frames with
    | nil =>
      rw [run, hp] at hs
      cases hs
      exact .silent s.timer nofun rfl (by simp only [Orderly, hp])
    | cons frame frames =>
      rw [run, hp] at hs
      cases hs
      exact .dispatches frame nofun rfl (by simp only [Orderly, hp])
  | ending =>
    rw [run, hp] at hs
    cases hs
    exact .ends (by simp only [Orderly, hp])
  | finished => exact absurd hp (ne_finished_of_run hs)

/-- A part of a callback is no call of `close()`, and stores no rejection. -/
theorem Inv.run (h : Inv s) (hs : run json s = some s') : Inv s' := by
  have hcalls : ∀ events : List (Event V), (∀ e ∈ events, e.isCall = true) → .closed ∉ events :=
    fun events hcall hmem => (ne_of_isCall (hcall _ hmem)).1 rfl
  cases part_of_run hs with
  | silent timer hne hnone => exact (h.timer timer).emit (by simp) (by rw [hnone]; nofun)
  | opens timer => exact (h.timer timer).emit (by simp) nofun
  | refuses => exact h.emit (hcalls _ (isCall_emitError s _)) nofun
  | breaks timer => exact (h.timer timer).emit (hcalls _ (isCall_emitError s _)) nofun
  | dispatches frame hne hnone =>
    exact h.emit (hcalls _ (isCall_frameEvents json frame)) (by rw [hnone]; nofun)
  | ends => exact h.emit (by simp) nofun
  | loses => exact h.emit (by simp) nofun

/-- The next part of a callback keeps the contract exactly if it is orderly. -/
theorem Proper.run_iff (h : Proper s) (hi : Inv s) (hs : run json s = some s') :
    Proper s' ↔ Orderly json s .run := by
  have hover := ne_finished_of_run hs
  cases part_of_run hs with
  | silent timer hne hnone horderly =>
    exact iff_of_true ((h.timer timer).emit_nil (hi.timer timer) hover hne) horderly
  | opens timer horderly =>
    exact ((h.timer timer).onOpen_iff (hi.timer timer) hover).trans horderly.symm
  | refuses hcause horderly => exact iff_of_true (h.emitError hi hover hcause) horderly
  | breaks timer hstored horderly =>
    have hclosed := hi.stored
    rw [hstored] at hclosed
    exact ((h.timer timer).emitError_iff (hi.timer timer) hover hclosed).trans horderly.symm
  | dispatches frame hne hnone horderly =>
    exact (h.frame_iff hi hover hne frame).trans horderly.symm
  | ends horderly => exact iff_of_true (h.onClose hover) horderly
  | loses horderly => exact iff_of_false (h.lost hover) horderly

theorem Proper.abort (h : Proper s) (source : Source) : Proper (abort s source) :=
  ⟨h.closes, h.last, h.silent, h.quiet⟩

/-- `close()` may be called at any time. -/
theorem Proper.close (h : Proper s) : Proper (close s) := by
  unfold StreamLifecycle.close
  split
  · exact h
  · constructor
    · rw [List.countP_append]
      exact h.closes
    · refine List.pairwise_append.2 ⟨h.last, List.pairwise_singleton _ _, fun a _ b hb _ => ?_⟩
      rw [List.mem_singleton.1 hb]
      rfl
    · refine List.pairwise_append.2 ⟨h.silent, List.pairwise_singleton _ _, fun a _ b hb _ h => ?_⟩
      rw [List.mem_singleton.1 hb] at h
      cases h
    · intro source hmem
      rcases List.mem_append.1 hmem with hmem | hmem
      · exact h.quiet source hmem
      · cases List.mem_singleton.1 hmem

/-- A rejection that says that `close()` has aborted the request comes if it has. -/
theorem Fetched.abortedBy_of_admitted {abortedBy : Option Source} {r : Fetched}
    (h : r.admitted abortedBy = true)
    (hr : (Phase.fetching (some r)).rejectedBy = some .close) : abortedBy = some .close := by
  cases r with
  | response status streaming => cases hr
  | rejected source =>
    cases (hr : source = some .close)
    exact (eq_of_beq h).symm

theorem Read.abortedBy_of_admitted {abortedBy : Option Source} {buffer : Units} {r : Read}
    (h : r.admitted abortedBy = true)
    (hr : (Phase.reading buffer (some r)).rejectedBy = some .close) : abortedBy = some .close := by
  cases r with
  | chunk text => cases hr
  | done => cases hr
  | rejected source =>
    cases (hr : source = some .close)
    exact (eq_of_beq h).symm

theorem Inv.step (h : Inv s) (hs : step json s a = some s') : Inv s' := by
  cases a with
  | close =>
    cases hs
    exact h.close
  | callerAbort =>
    cases hs
    exact h.abort nofun
  | timeout =>
    simp only [StreamLifecycle.step] at hs
    split_ifs at hs
    cases hs
    exact (h.timer false).abort nofun
  | fetched r =>
    simp only [StreamLifecycle.step] at hs
    split_ifs at hs with hadmitted
    cases hs
    exact h.result fun hr => h.source (Fetched.abortedBy_of_admitted hadmitted.2 hr)
  | bodyRead ok =>
    simp only [StreamLifecycle.step] at hs
    split at hs
    · cases hs
      exact h.result nofun
    · cases hs
  | read r =>
    simp only [StreamLifecycle.step] at hs
    split at hs
    · split_ifs at hs with hadmitted
      cases hs
      exact h.result fun hr => h.source (Read.abortedBy_of_admitted hadmitted hr)
    · cases hs
  | run => exact h.run hs

/-- A step keeps the contract exactly if it is orderly. -/
theorem Proper.step_iff (h : Proper s) (hi : Inv s) (hs : step json s a = some s') :
    Proper s' ↔ Orderly json s a := by
  cases a with
  | close =>
    cases hs
    exact iff_of_true h.close trivial
  | callerAbort =>
    cases hs
    exact iff_of_true (h.abort _) trivial
  | timeout =>
    simp only [StreamLifecycle.step] at hs
    split_ifs at hs
    cases hs
    exact iff_of_true ((h.timer false).abort _) trivial
  | fetched r =>
    simp only [StreamLifecycle.step] at hs
    split_ifs at hs with hadmitted
    cases hs
    exact iff_of_true (h.result (hadmitted.1 ▸ nofun) nofun) trivial
  | bodyRead ok =>
    simp only [StreamLifecycle.step] at hs
    split at hs
    · rename_i hp
      cases hs
      exact iff_of_true (h.result (hp ▸ nofun) nofun) trivial
    · cases hs
  | read r =>
    simp only [StreamLifecycle.step] at hs
    split at hs
    · rename_i hp
      split_ifs at hs
      cases hs
      exact iff_of_true (h.result (hp ▸ nofun) nofun) trivial
    · cases hs
  | run => exact h.run_iff hi hs

theorem proper_init (h : (stream json).init s) : Proper s := by
  obtain ⟨timer, rfl⟩ | rfl := h
  · exact ⟨rfl, .nil, .nil, nofun⟩
  · exact ⟨rfl, List.pairwise_singleton _ _, List.pairwise_singleton _ _, nofun⟩

/-! ## Callbacks that come to an end -/

/-- After some more parts of the callback the stream waits for the network, or it is over. -/
def Rests (json : Codec J V) (s : State V) : Prop :=
  ∃ n s', (stream json).run s (List.replicate n .run) = some s' ∧ (s'.phase = .finished ∨ s'.Waits)

theorem Rests.here (json : Codec J V) (h : s.phase = .finished ∨ s.Waits) : Rests json s :=
  ⟨0, s, rfl, h⟩

theorem Rests.next (hs : run json s = some s') (h : Rests json s') : Rests json s := by
  obtain ⟨n, t, ht, hrest⟩ := h
  refine ⟨n + 1, t, ?_, hrest⟩
  have hstep : (stream json).step s .run = some s' := hs
  rw [List.replicate_succ, System.run, hstep]
  exact ht

theorem rests_ending (json : Codec J V) (hs : s.phase = .ending) : Rests json s :=
  .next (by rw [run, hs]) (.here json (.inl rfl))

theorem rests_opened (json : Codec J V) {streaming : Bool} (hs : s.phase = .opened streaming) :
    Rests json s := by
  cases streaming with
  | true =>
    have hrun : run json s = some (s.emit (.reading [] none) []) := by rw [run, hs]
    exact .next hrun (.here json (.inr trivial))
  | false => exact .next (by rw [run, hs]) (rests_ending json rfl)

/-- The loop over the frames of a chunk. -/
theorem rests_dispatching (json : Codec J V) {frames : List Units} {rest : Units}
    (hs : s.phase = .dispatching frames rest) : Rests json s := by
  induction frames generalizing s with
  | nil =>
    have hrun : run json s = some (s.emit (.reading rest none) []) := by rw [run, hs]
    exact .next hrun (.here json (.inr trivial))
  | cons frame frames ih =>
    have hrun : run json s = some (s.emit (.dispatching frames rest) (frameEvents json frame)) := by
      rw [run, hs]
    exact .next hrun (ih rfl)

/-- Every callback comes to an end. -/
theorem rests (json : Codec J V) (s : State V) : Rests json s := by
  cases hs : s.phase with
  | fetching result =>
    rcases result with - | ⟨status, streaming⟩ | source
    · exact .here json (.inr (by rw [State.Waits, hs]; trivial))
    · by_cases hok : 200 ≤ status ∧ status ≤ 299
      · have hrun : run json s =
            some (State.emit { s with timer := false } (.opened streaming) [.onOpen]) := by
          rw [run, hs]
          exact if_pos hok
        exact .next hrun (rests_opened json rfl)
      · have hrun : run json s =
            some (State.emit { s with timer := false } (.readingError status none) []) := by
          rw [run, hs]
          exact if_neg hok
        exact .next hrun (.here json (.inr trivial))
    · exact .next (by rw [run, hs]) (rests_ending json rfl)
  | readingError status result =>
    rcases result with - | read
    · exact .here json (.inr (by rw [State.Waits, hs]; trivial))
    · cases read with
      | true => exact .next (by rw [run, hs]) (rests_ending json rfl)
      | false => exact .next (by rw [run, hs]) (.here json (.inl rfl))
  | opened streaming => exact rests_opened json hs
  | reading buffer result =>
    rcases result with - | text | - | source
    · exact .here json (.inr (by rw [State.Waits, hs]; trivial))
    · exact .next (by rw [run, hs]) (rests_dispatching json rfl)
    · exact .next (by rw [run, hs]) (rests_ending json rfl)
    · exact .next (by rw [run, hs]) (rests_ending json rfl)
  | dispatching frames rest => exact rests_dispatching json hs
  | ending => exact rests_ending json hs
  | finished => exact .here json (.inl hs)

/-! ## The contract in a run -/

/-- In a run of orderly steps every state keeps the contract, and every callback comes to an end; a
    step that is not orderly breaks the contract. -/
theorem proper_of_reach (json : Codec J V) (s : State V)
    (h : (stream json).Reach (Orderly json) s) : Proper s ∧
      (∀ a s', (stream json).step s a = some s' → (Proper s' ↔ Orderly json s a)) ∧
      ∃ n s', (stream json).run s (List.replicate n .run) = some s' ∧
        (s'.phase = .finished ∨ s'.Waits) := by
  have hkept : Inv s ∧ Proper s := by
    refine h.invariant (P := fun t => Inv t ∧ Proper t) ?_ ?_
    · intro t ht
      exact ⟨inv_init ht, proper_init ht⟩
    · intro t a t' ht horderly hs
      exact ⟨ht.1.step hs, (ht.2.step_iff ht.1 hs).2 horderly⟩
  exact ⟨hkept.2, fun a s' hs => hkept.2.step_iff hkept.1 hs, rests json s⟩

/-- A stream that the page closes after its first event. -/
theorem proper_of_reach_closed : Proper (V := Units) ⟨some .close, false, true, .finished,
    [.onOpen, .frame (.onPending .null), .closed, .onClose]⟩ :=
  (proper_of_reach EventStream.messages _ (System.reach_of_runGuarded
    (.init (.inl ⟨true, rfl⟩))
    (show (stream EventStream.messages).runGuarded _ _
      [.fetched (.response 200 true), .run, .run, .read (.chunk (units "event: pending\n\n")), .run,
        .run, .close, .run, .read (.rejected (some .close)), .run, .run] = _ from by
        decide +kernel))).1

/-- The page leaves before the response is there, and the end is told as an error. -/
theorem abort_told : ∃ s : State Units, (stream EventStream.messages).Reach System.Always s ∧
    s.log = [.onError (.ended (some .caller)), .onClose] ∧ ¬Proper s := by
  refine ⟨_, System.reach_of_run (.init (.inl ⟨true, rfl⟩))
    (show (stream EventStream.messages).run _
      [.callerAbort, .fetched (.rejected (some .caller)), .run, .run] = _ from rfl), rfl, ?_⟩
  intro hproper
  cases hproper.quiet .caller (.head _)

end LiteCode.StreamLifecycle
