import LiteCode.Lib.Bytes
import LiteCode.Lib.ListIndex
import LiteCode.Lib.System

/-!
# The notification stream

`NotificationBroadcaster` and `handle_notification_stream` of `src/routes/notification_routes.h`.
A user has one channel, with one queue and one flag `disconnected`, for all of the user's streams.
The handler of a stream joins the channel, installs a content provider and leaves the channel
before it returns; only then does the server call the provider, which pops a frame, or a ping if
there is none, and writes it. The provider refers to a local variable of the handler for the id of
the user: what it reads there is part of the step.

`pop` holds the mutex of the whole broadcaster while it waits for a frame.

Frames are numbered by their push, and a stream keeps what it is owed (the frames that were pushed
to its user while it was open) beside what it has written.

* `Served`: a channel with an open stream takes what is pushed, and a provider that pops does not
  come to wait and takes no frame that another stream is owed;
* `delivers_of_reach`: under it every open stream writes what it is owed, once and in order, and no
  push or pop of another user is held up; a step that does not meet it breaks this.
-/

namespace LiteCode.NotificationBroadcaster

/-- A frame that was pushed to a user. The queues of the code hold the frame only. -/
structure Pushed where
  no : Nat
  userId : Int
  frame : Bytes
  deriving DecidableEq, Repr

/-- `UserChannel`. -/
structure Channel where
  events : List Pushed
  disconnected : Bool
  deriving DecidableEq, Repr

/-- Where a stream is. -/
inductive Phase
  /-- The handler has joined. -/
  | handling
  /-- The handler has left, and the server calls the provider. -/
  | streaming
  | closed
  deriving DecidableEq, Repr

/-- A stream. `none` in its output is a ping. -/
structure Stream where
  userId : Int
  phase : Phase
  output : List (Option Pushed)
  owed : List Pushed
  deriving DecidableEq, Repr

/-- Not closed yet. -/
def Stream.isOpen (t : Stream) : Bool := t.phase != .closed

/-- The frames it has written. -/
def Stream.written (t : Stream) : List Pushed := t.output.filterMap id

/-- The broadcaster and the streams. -/
structure State where
  channels : Int → Option Channel
  streams : List Stream
  /-- The stream whose provider waits in `pop`, with the id that it pops for. -/
  waiting : Option (Nat × Int)
  pushes : Nat

/-- The next step: of the handler or the provider of a stream, or of an event handler. -/
inductive Action
  | join (userId : Int)
  | leave (p : Nat)
  | push (userId : Int) (frame : Bytes)
  /-- The provider of the stream reads `userId` and calls `pop`. -/
  | pop (p : Nat) (userId : Int)
  /-- The wait ends. -/
  | timeout
  | close (p : Nat)
  deriving DecidableEq

/-- A channel is made or changed. -/
def State.put (s : State) (userId : Int) (ch : Channel) : State :=
  { s with channels := fun u => if u = userId then some ch else s.channels u }

/-- The stream `p` is changed. -/
def State.set (s : State) (p : Nat) (t : Stream) : State := { s with streams := s.streams.set p t }

/-- A frame pushed to the user, or a ping, is written. -/
def Stream.write (t : Stream) (x : Option Pushed) : Stream := { t with output := t.output ++ [x] }

/-- A stream of the user that is open is owed the frame. -/
def Stream.owe (userId : Int) (x : Pushed) (t : Stream) : Stream :=
  if t.userId = userId ∧ t.isOpen = true then { t with owed := t.owed ++ [x] } else t

/-- `join`. -/
def State.join (s : State) (userId : Int) : State :=
  s.put userId ⟨((s.channels userId).map Channel.events).getD [], false⟩

/-- `leave`. -/
def State.leave (s : State) (userId : Int) : State :=
  match s.channels userId with
  | none => s
  | some ch => s.put userId { ch with disconnected := true }

/-- `push`. -/
def State.push (s : State) (userId : Int) (x : Pushed) : State :=
  match s.channels userId with
  | none => s
  | some ch =>
    if ch.disconnected then s else s.put userId { ch with events := ch.events ++ [x] }

/-- `pop`, called by the provider of the stream `p`, and what the provider writes; or the wait
    begins. -/
def State.pop (s : State) (p : Nat) (t : Stream) (userId : Int) : State :=
  match s.channels userId with
  | none => s.set p (t.write none)
  | some ⟨x :: events, disconnected⟩ => (s.put userId ⟨events, disconnected⟩).set p (t.write x)
  | some ⟨[], true⟩ => s.set p (t.write none)
  | some ⟨[], false⟩ => { s with waiting := some (p, userId) }

/-- One step. The calls of the broadcaster need its mutex, which a waiting `pop` holds. -/
def step (s : State) : Action → Option State
  | .join userId =>
    if s.waiting = none then
      some { s.join userId with streams := s.streams ++ [⟨userId, .handling, [], []⟩] }
    else none
  | .leave p => s.streams[p]?.bind fun t =>
    if s.waiting = none ∧ t.phase = .handling then
      some ((s.leave t.userId).set p { t with phase := .streaming })
    else none
  | .push userId frame =>
    if s.waiting = none then
      let x : Pushed := ⟨s.pushes, userId, frame⟩
      some { s.push userId x with
        streams := s.streams.map (Stream.owe userId x)
        pushes := s.pushes + 1 }
    else none
  | .pop p userId => s.streams[p]?.bind fun t =>
    if s.waiting = none ∧ t.phase = .streaming then some (s.pop p t userId) else none
  | .timeout => s.waiting.bind fun w => s.streams[w.1]?.map fun t =>
    { s.set w.1 (t.write none) with waiting := none }
  | .close p => s.streams[p]?.bind fun t =>
    if s.waiting.map Prod.fst ≠ some p ∧ t.phase = .streaming then
      some (s.set p { t with phase := .closed })
    else none

/-- The broadcaster of a process. -/
def system : System State Action where
  init s := s = ⟨fun _ => none, [], none, 0⟩
  step := step

/-! ## What is promised -/

/-- The frames of a queue. -/
def State.queue (s : State) (userId : Int) : List Pushed :=
  ((s.channels userId).map Channel.events).getD []

/-- The call can be made at once, or it is for a user whose stream is waiting. -/
def State.Free (s : State) (userId : Int) (a : Action) : Prop :=
  (step s a).isSome ∨ ∃ p t v, s.waiting = some (p, v) ∧ s.streams[p]? = some t ∧ t.userId = userId

/-- What a stream has written of what it is owed, and what the queue still holds for it, is what was
    pushed, in order. -/
def Stream.Balanced (t : Stream) (queue : List Pushed) : Prop :=
  t.written.filter (· ∈ t.owed) ++ queue.filter (· ∈ t.owed) = t.owed

/-- Every open stream has its frames, and no push or pop waits for the stream of another user. -/
structure Delivers (s : State) : Prop where
  balanced : ∀ t ∈ s.streams, t.isOpen = true → t.Balanced (s.queue t.userId)
  push : ∀ userId frame, s.Free userId (.push userId frame)
  pop : ∀ p t, s.streams[p]? = some t → t.phase = .streaming →
    ∀ userId, s.Free t.userId (.pop p userId)

/-- The channel of the user takes frames. -/
def State.takes (s : State) (userId : Int) : Bool :=
  (s.channels userId).any fun ch => !ch.disconnected

/-- A stream other than `p` that is open is owed the frame. -/
def State.owes (s : State) (p : Nat) (x : Pushed) : Prop :=
  ∃ y ∈ s.streams.zipIdx, y.2 ≠ p ∧ y.1.isOpen = true ∧ x ∈ y.1.owed

/-- Steps that do no harm: a frame is pushed to a user with no open stream, or to a channel that
    takes it; and a provider that pops does not come to wait, and takes no frame that another stream
    is owed. -/
def Served (s : State) : Action → Prop
  | .push userId _ =>
    s.takes userId = true ∨ ∀ t ∈ s.streams, t.userId = userId → t.isOpen = false
  | .pop p userId =>
    (s.queue userId = [] → s.takes userId = false) ∧ ∀ x ∈ (s.queue userId).head?, ¬s.owes p x
  | _ => True

instance (s : State) (p : Nat) (x : Pushed) : Decidable (s.owes p x) :=
  inferInstanceAs (Decidable (∃ y ∈ s.streams.zipIdx, _))

instance (s : State) : (a : Action) → Decidable (Served s a)
  | .push userId _ => inferInstanceAs (Decidable
      (s.takes userId = true ∨ ∀ t ∈ s.streams, t.userId = userId → t.isOpen = false))
  | .pop p userId => inferInstanceAs (Decidable
      ((s.queue userId = [] → s.takes userId = false) ∧
        ∀ x ∈ (s.queue userId).head?, ¬s.owes p x))
  | .join _ => isTrue trivial
  | .leave _ => isTrue trivial
  | .timeout => isTrue trivial
  | .close _ => isTrue trivial

/-! ## The invariant -/

/-- A frame of a push that was made, to the user if one is given. -/
def State.Made (s : State) (userId : Option Int) (x : Pushed) : Prop :=
  x.no < s.pushes ∧ ∀ v ∈ userId, x.userId = v

/-- No provider waits, the frames are numbered by their push, those in a queue or owed to a stream
    were pushed to the user, and every open stream has its frames. -/
structure Inv (s : State) : Prop where
  idle : s.waiting = none
  written : ∀ t ∈ s.streams, ∀ x ∈ t.written, s.Made none x
  owed : ∀ t ∈ s.streams, ∀ x ∈ t.owed, s.Made t.userId x
  queue : ∀ userId, ∀ x ∈ s.queue userId, s.Made userId x
  balanced : ∀ t ∈ s.streams, t.isOpen = true → t.Balanced (s.queue t.userId)

variable {s s' : State} {a : Action} {t : Stream} {p : Nat} {userId : Int} {x : Pushed}
  {frame : Bytes}

theorem queue_put (s : State) (userId v : Int) (ch : Channel) :
    (s.put userId ch).queue v = if v = userId then ch.events else s.queue v := by
  simp only [State.queue, State.put]
  split_ifs <;> rfl

theorem queue_join (s : State) (userId v : Int) : (s.join userId).queue v = s.queue v := by
  rw [State.join, queue_put]
  split_ifs with h
  · rw [h, State.queue]
  · rfl

theorem queue_leave (s : State) (userId v : Int) : (s.leave userId).queue v = s.queue v := by
  rw [State.leave]
  cases h : s.channels userId with
  | none => rfl
  | some ch =>
    rw [queue_put]
    split_ifs with hv
    · rw [hv, State.queue, h, Option.map_some, Option.getD_some]
    · rfl

theorem queue_push (s : State) (userId v : Int) (x : Pushed) :
    (s.push userId x).queue v =
      if v = userId ∧ s.takes userId = true then s.queue v ++ [x] else s.queue v := by
  rw [State.push, State.takes]
  cases h : s.channels userId with
  | none => simp
  | some ch =>
    cases hd : ch.disconnected with
    | true => simp [hd]
    | false =>
      simp only [Bool.false_eq_true, if_false, queue_put, Option.any_some, hd, Bool.not_false,
        and_true]
      split_ifs with hv
      · rw [hv, State.queue, h, Option.map_some, Option.getD_some]
      · rfl

/-- `leave` and `push` change channels only. -/
theorem leave_eq (s : State) (userId : Int) :
    s.leave userId = { s with channels := (s.leave userId).channels } := by
  rw [State.leave]
  split <;> rfl

theorem push_eq (s : State) (userId : Int) (x : Pushed) :
    s.push userId x = { s with channels := (s.push userId x).channels } := by
  rw [State.push]
  split
  · rfl
  · split_ifs <;> rfl

/-- `pop`: a ping is written, or the provider waits, or the first frame of the queue is written. -/
theorem pop_cases (s : State) (p : Nat) (t : Stream) (userId : Int) :
    (s.queue userId = [] ∧ s.takes userId = false ∧ s.pop p t userId = s.set p (t.write none)) ∨
    (s.queue userId = [] ∧ s.takes userId = true ∧
      s.pop p t userId = { s with waiting := some (p, userId) }) ∨
    ∃ x ch, s.queue userId = x :: ch.events ∧
      s.pop p t userId = (s.put userId ch).set p (t.write (some x)) := by
  simp only [State.pop, State.queue, State.takes]
  match s.channels userId with
  | none => exact .inl ⟨rfl, rfl, rfl⟩
  | some ⟨x :: events, disconnected⟩ => exact .inr (.inr ⟨x, ⟨events, disconnected⟩, rfl, rfl⟩)
  | some ⟨[], true⟩ => exact .inl ⟨rfl, rfl, rfl⟩
  | some ⟨[], false⟩ => exact .inr (.inl ⟨rfl, rfl, rfl⟩)

/-! ## What a step does to the balance of a stream -/

theorem filter_mem_concat {l o : List Pushed} (h : x ∉ l) :
    l.filter (· ∈ o ++ [x]) = l.filter (· ∈ o) := by
  refine List.filter_congr fun y hy => ?_
  have hne : y ≠ x := fun he => h (he ▸ hy)
  simp [hne]

theorem written_write (t : Stream) (y : Option Pushed) :
    (t.write y).written = t.written ++ y.toList := by
  rw [Stream.written, Stream.write, List.filterMap_append, Stream.written]
  cases y <;> rfl

/-- The stream is owed a new frame, and its queue has it. -/
theorem Stream.Balanced.owe {q : List Pushed} (h : t.Balanced q) (hw : x ∉ t.written)
    (hq : x ∉ q) : Stream.Balanced { t with owed := t.owed ++ [x] } (q ++ [x]) := by
  have h : t.written.filter (· ∈ t.owed) ++ q.filter (· ∈ t.owed) = t.owed := h
  change t.written.filter (· ∈ t.owed ++ [x]) ++ (q ++ [x]).filter (· ∈ t.owed ++ [x]) = _
  rw [List.filter_append, filter_mem_concat hw, filter_mem_concat hq, ← List.append_assoc, h]
  simp

/-- The stream writes the frame at the head of its queue. -/
theorem Stream.Balanced.write {q : List Pushed} (h : t.Balanced (x :: q)) :
    (t.write (some x)).Balanced q := by
  have h : t.written.filter (· ∈ t.owed) ++ ([x] ++ q).filter (· ∈ t.owed) = t.owed := h
  change (t.write (some x)).written.filter (· ∈ t.owed) ++ q.filter (· ∈ t.owed) = t.owed
  rw [List.filter_append] at h
  rw [written_write, List.filter_append, List.append_assoc]
  exact h

/-- The stream writes a frame that it is not owed. -/
theorem Stream.Balanced.write_other {q : List Pushed} (h : t.Balanced q) (hx : x ∉ t.owed) :
    (t.write (some x)).Balanced q := by
  change (t.write (some x)).written.filter (· ∈ t.owed) ++ q.filter (· ∈ t.owed) = t.owed
  rw [written_write, List.filter_append]
  simpa [hx, Stream.Balanced] using h

/-- A frame that leaves the queue of a stream balances its account exactly if the stream is not owed
    the frame. -/
theorem Stream.Balanced.behead_iff {q : List Pushed} (h : t.Balanced (x :: q)) :
    t.Balanced q ↔ x ∉ t.owed := by
  have h : t.written.filter (· ∈ t.owed) ++ (x :: q).filter (· ∈ t.owed) = t.owed := h
  rw [List.filter_cons] at h
  constructor
  · intro hq hx
    have hq : t.written.filter (· ∈ t.owed) ++ q.filter (· ∈ t.owed) = t.owed := hq
    rw [if_pos (decide_eq_true hx)] at h
    have := congrArg List.length (h.trans hq.symm)
    simp only [List.length_append, List.length_cons] at this
    omega
  · intro hx
    rwa [if_neg (by simpa using hx)] at h

theorem owe_eq_of_ne (h : ¬(t.userId = userId ∧ t.isOpen = true)) : t.owe userId x = t := if_neg h

theorem owe_eq_of_open (hu : t.userId = userId) (ho : t.isOpen = true) :
    t.owe userId x = { t with owed := t.owed ++ [x] } := if_pos ⟨hu, ho⟩

/-- What `owe` leaves alone. -/
theorem owe_fields (userId : Int) (x : Pushed) (t : Stream) :
    (t.owe userId x).userId = t.userId ∧ (t.owe userId x).isOpen = t.isOpen ∧
      (t.owe userId x).written = t.written ∧
      ∀ y ∈ (t.owe userId x).owed, (y = x ∧ t.userId = userId) ∨ y ∈ t.owed := by
  rw [Stream.owe]
  split_ifs with h
  · refine ⟨rfl, rfl, rfl, fun y hy => ?_⟩
    exact (List.mem_append.1 hy).symm.imp_left fun hy => ⟨List.mem_singleton.1 hy, h.1⟩
  · exact ⟨rfl, rfl, rfl, fun y hy => .inr hy⟩

/-! ## Steps -/

/-- A stream is changed, and the queues are as before. -/
theorem Inv.set (h : Inv s) {t' : Stream} {ch : Int → Option Channel} (ht : t ∈ s.streams)
    (hqueue : ∀ v, ((ch v).map Channel.events).getD [] = s.queue v) (hu : t'.userId = t.userId)
    (hopen : t'.isOpen = true → t.isOpen = true) (howed : t'.owed = t.owed)
    (hwritten : t'.written = t.written) :
    Inv { s.set p t' with channels := ch } where
  idle := h.idle
  written y hy := by
    rcases List.mem_or_eq_of_mem_set hy with hy | rfl
    · exact h.written y hy
    · rw [hwritten]
      exact h.written t ht
  owed y hy := by
    rcases List.mem_or_eq_of_mem_set hy with hy | rfl
    · exact h.owed y hy
    · rw [howed, hu]
      exact h.owed t ht
  queue v y hy := h.queue v y (hqueue v ▸ hy)
  balanced y hy ho := by
    rw [State.queue, hqueue]
    rcases List.mem_or_eq_of_mem_set hy with hy | rfl
    · exact h.balanced y hy ho
    · have := h.balanced t ht (hopen ho)
      rw [Stream.Balanced] at this ⊢
      rwa [hwritten, howed, hu]

theorem Inv.join (h : Inv s) (userId : Int) :
    Inv { s.join userId with streams := s.streams ++ [⟨userId, .handling, [], []⟩] } where
  idle := h.idle
  written :=
    List.forall_mem_append.2 ⟨h.written, List.forall_mem_singleton.2 (by simp [Stream.written])⟩
  owed := List.forall_mem_append.2 ⟨h.owed, List.forall_mem_singleton.2 (by simp)⟩
  queue v y hy := h.queue v y (queue_join s userId v ▸ hy)
  balanced y hy ho := by
    change y.Balanced ((s.join userId).queue y.userId)
    rw [queue_join]
    rcases List.mem_append.1 hy with hy | hy
    · exact h.balanced y hy ho
    · rw [List.mem_singleton.1 hy]
      simp [Stream.Balanced, Stream.written]

/-- The state after a push. -/
def State.pushed (s : State) (userId : Int) (x : Pushed) : State :=
  { s.push userId x with
    streams := s.streams.map (Stream.owe userId x)
    pushes := s.pushes + 1 }

theorem State.Made.later {v : Option Int} (h : s.Made v x) {y : Pushed} :
    (s.pushed userId y).Made v x :=
  ⟨Nat.lt_succ_of_lt h.1, h.2⟩

theorem queue_pushed (s : State) (userId v : Int) (x : Pushed) : (s.pushed userId x).queue v =
    if v = userId ∧ s.takes userId = true then s.queue v ++ [x] else s.queue v :=
  queue_push s userId v x

/-- The streams have their frames after a push exactly if it is served. -/
theorem balanced_pushed_iff (h : Inv s) (userId : Int) (frame : Bytes) :
    (∀ t ∈ (s.pushed userId ⟨s.pushes, userId, frame⟩).streams, t.isOpen = true →
        t.Balanced ((s.pushed userId ⟨s.pushes, userId, frame⟩).queue t.userId)) ↔
      Served s (.push userId frame) := by
  have hnew : ∀ (l : List Pushed) (v : Option Int), (∀ y ∈ l, s.Made v y) →
      (⟨s.pushes, userId, frame⟩ : Pushed) ∉ l := fun l v hl hm => Nat.lt_irrefl _ (hl _ hm).1
  constructor
  · intro hb
    by_contra hserved
    simp only [Served, not_or, not_forall, Bool.not_eq_false] at hserved
    obtain ⟨htakes, t, ht, hu, ho⟩ := hserved
    have hbal := hb _ (List.mem_map_of_mem ht) ((owe_fields ..).2.1.trans ho)
    rw [owe_eq_of_open hu ho, queue_pushed, if_neg fun hc => htakes hc.2] at hbal
    -- the frame is owed, but it is neither written nor queued
    have hmem : (⟨s.pushes, userId, frame⟩ : Pushed) ∈
        t.written.filter (· ∈ t.owed ++ [⟨s.pushes, userId, frame⟩]) ++
          (s.queue t.userId).filter (· ∈ t.owed ++ [⟨s.pushes, userId, frame⟩]) := by
      have : _ = t.owed ++ [⟨s.pushes, userId, frame⟩] := hbal
      rw [show t.written.filter (· ∈ t.owed ++ [⟨s.pushes, userId, frame⟩]) ++
        (s.queue t.userId).filter (· ∈ t.owed ++ [⟨s.pushes, userId, frame⟩]) = _ from this]
      simp
    rcases List.mem_append.1 hmem with hm | hm
    · exact hnew _ _ (h.written t ht) (List.mem_of_mem_filter hm)
    · exact hnew _ _ (h.queue _) (List.mem_of_mem_filter hm)
  · intro hserved y hy ho
    obtain ⟨t, ht, rfl⟩ := List.mem_map.1 hy
    obtain ⟨hu, hopen, -, -⟩ := owe_fields userId ⟨s.pushes, userId, frame⟩ t
    rw [hopen] at ho
    rw [hu, queue_pushed]
    by_cases htu : t.userId = userId
    · have htakes : s.takes userId = true := by
        rcases hserved with hs | hs
        · exact hs
        · cases ho.symm.trans (hs t ht htu)
      rw [if_pos ⟨htu, htakes⟩, owe_eq_of_open htu ho]
      exact (h.balanced t ht ho).owe (hnew _ _ (h.written t ht)) (hnew _ _ (h.queue _))
    · rw [if_neg fun hc => htu hc.1, owe_eq_of_ne fun hc => htu hc.1]
      exact h.balanced t ht ho

theorem Inv.push (h : Inv s) (hg : Served s (.push userId frame)) :
    Inv (s.pushed userId ⟨s.pushes, userId, frame⟩) where
  idle := by
    rw [State.pushed, push_eq]
    exact h.idle
  written y hy z hz := by
    obtain ⟨t, ht, rfl⟩ := List.mem_map.1 hy
    rw [(owe_fields ..).2.2.1] at hz
    exact (h.written t ht z hz).later
  owed y hy z hz := by
    obtain ⟨t, ht, rfl⟩ := List.mem_map.1 hy
    rw [(owe_fields ..).1]
    rcases (owe_fields ..).2.2.2 z hz with ⟨rfl, hu⟩ | hz
    · exact ⟨Nat.lt_succ_self s.pushes, by simp [hu]⟩
    · exact (h.owed t ht z hz).later
  queue v z hz := by
    rw [queue_pushed] at hz
    split_ifs at hz with hv
    · rcases List.mem_append.1 hz with hz | hz
      · exact (h.queue v z hz).later
      · rw [List.mem_singleton.1 hz]
        exact ⟨Nat.lt_succ_self s.pushes, by simp [hv.1]⟩
    · exact (h.queue v z hz).later
  balanced := (balanced_pushed_iff h userId frame).2 hg

theorem not_owes_iff : ¬s.owes p x ↔
    ∀ q t, s.streams[q]? = some t → q ≠ p → t.isOpen = true → x ∉ t.owed := by
  simp only [State.owes, not_exists, not_and, Prod.forall, List.mk_mem_zipIdx_iff_getElem?]
  exact ⟨fun h q t hq => h t q hq, fun h t q hq => h q t hq⟩

/-- The state after a frame is popped and written. -/
def State.popped (s : State) (p : Nat) (t : Stream) (userId : Int) (x : Pushed) (ch : Channel) :
    State :=
  (s.put userId ch).set p (t.write (some x))

/-- The streams have their frames after a pop exactly if the frame is owed to no other stream. -/
theorem balanced_popped_iff (h : Inv s) (hp : s.streams[p]? = some t) {ch : Channel}
    (hq : s.queue userId = x :: ch.events) :
    (∀ y ∈ (s.popped p t userId x ch).streams, y.isOpen = true →
        y.Balanced ((s.popped p t userId x ch).queue y.userId)) ↔ ¬s.owes p x := by
  have hx : x.userId = userId := (h.queue userId x (hq ▸ List.mem_cons_self)).2 userId rfl
  have hqueue : ∀ v, (s.popped p t userId x ch).queue v =
      if v = userId then ch.events else s.queue v := fun v => queue_put s userId v ch
  -- a frame is owed to streams of its user only
  have huser : ∀ y ∈ s.streams, x ∈ y.owed → y.userId = userId := fun y hy hm =>
    ((h.owed y hy x hm).2 _ rfl).symm.trans hx
  constructor
  · rw [State.owes]
    rintro hb ⟨⟨y, q⟩, hy, hne, ho, hm⟩
    have hy := List.mk_mem_zipIdx_iff_getElem?.1 hy
    have hu := huser y (List.mem_of_getElem? hy) hm
    have hmem : y ∈ (s.popped p t userId x ch).streams :=
      List.mem_of_getElem? ((List.getElem?_set_ne (Ne.symm hne)).trans hy)
    have hafter := hb y hmem ho
    rw [hqueue, if_pos hu] at hafter
    have hbefore := h.balanced y (List.mem_of_getElem? hy) ho
    rw [hu, hq] at hbefore
    exact hbefore.behead_iff.1 hafter hm
  · intro howes y hy ho
    obtain ⟨j, hj⟩ := List.mem_iff_getElem?.1 hy
    rw [hqueue]
    rcases getElem?_set_cases hj with ⟨rfl, rfl⟩ | ⟨hne, hj⟩
    · have hbefore := h.balanced t (List.mem_of_getElem? hp) ho
      change (t.write (some x)).Balanced (if t.userId = userId then ch.events else _)
      split_ifs with hu
      · rw [hu, hq] at hbefore
        exact hbefore.write
      · exact hbefore.write_other fun hm => hu (huser t (List.mem_of_getElem? hp) hm)
    · have hbefore := h.balanced y (List.mem_of_getElem? hj) ho
      split_ifs with hu
      · rw [hu, hq] at hbefore
        exact hbefore.behead_iff.2 (not_owes_iff.1 howes j y hj hne ho)
      · exact hbefore

/-- A provider writes the first frame of a queue. -/
theorem Inv.popped (h : Inv s) (hp : s.streams[p]? = some t) {ch : Channel}
    (hq : s.queue userId = x :: ch.events) (howes : ¬s.owes p x) :
    Inv (s.popped p t userId x ch) where
  idle := h.idle
  written y hy z hz := by
    rcases List.mem_or_eq_of_mem_set hy with hy | rfl
    · exact h.written y hy z hz
    · rw [written_write] at hz
      rcases List.mem_append.1 hz with hz | hz
      · exact h.written t (List.mem_of_getElem? hp) z hz
      · obtain rfl : z = x := by simpa using hz
        exact ⟨(h.queue userId z (hq ▸ List.mem_cons_self)).1, by simp⟩
  owed y hy := by
    rcases List.mem_or_eq_of_mem_set hy with hy | rfl
    · exact h.owed y hy
    · exact h.owed t (List.mem_of_getElem? hp)
  queue v z hz := by
    rw [show (s.popped p t userId x ch).queue v = _ from queue_put s userId v ch] at hz
    split_ifs at hz with hv
    · exact h.queue v z (hv ▸ hq ▸ List.mem_cons_of_mem x hz)
    · exact h.queue v z hz
  balanced := (balanced_popped_iff h hp hq).2 howes

/-- Nothing waits, so every call can be made. -/
theorem Inv.delivers (h : Inv s) : Delivers s where
  balanced := h.balanced
  push userId frame := .inl (by rw [step, if_pos h.idle]; rfl)
  pop p t hp ht userId := .inl (by rw [step, hp, Option.bind_some, if_pos ⟨h.idle, ht⟩]; rfl)

/-- A provider that waits holds up every other user. -/
theorem not_delivers_waiting (hp : s.streams[p]? = some t) (userId : Int) :
    ¬Delivers { s with waiting := some (p, userId) } := by
  intro h
  rcases h.push (t.userId + 1) [] with hs | ⟨q, t', v, hw, ht', hu⟩
  · simp [step] at hs
  · cases hw
    cases hp.symm.trans ht'
    omega

/-- A step from a state in which all is well: all stays well if the step is served, and only
    then. -/
theorem step_spec (h : Inv s) (hs : step s a = some s') :
    (Served s a → Inv s') ∧ (Delivers s' → Served s a) := by
  cases a with
  | join userId =>
    rw [step, if_pos h.idle] at hs
    cases hs
    exact ⟨fun _ => h.join userId, fun _ => trivial⟩
  | leave p =>
    obtain ⟨t, hp, hs⟩ := Option.bind_eq_some_iff.1 hs
    split_ifs at hs with hpc
    cases hs
    rw [leave_eq]
    refine ⟨fun _ => ?_, fun _ => trivial⟩
    refine h.set (List.mem_of_getElem? hp) (queue_leave s t.userId) rfl (fun _ => ?_) rfl rfl
    rw [Stream.isOpen, hpc.2]
    rfl
  | push userId frame =>
    rw [step, if_pos h.idle] at hs
    cases hs
    exact ⟨h.push, fun hd => (balanced_pushed_iff h userId frame).1 hd.balanced⟩
  | pop p userId =>
    obtain ⟨t, hp, hs⟩ := Option.bind_eq_some_iff.1 hs
    split_ifs at hs with hpc
    cases hs
    rcases pop_cases s p t userId with ⟨hq, ht, he⟩ | ⟨hq, ht, he⟩ | ⟨x, ch, hq, he⟩
    · rw [he]
      refine ⟨fun _ => ?_, fun _ => ⟨fun _ => ht, by simp [hq]⟩⟩
      exact h.set (List.mem_of_getElem? hp) (fun _ => rfl) rfl id rfl
        ((written_write t none).trans (List.append_nil _))
    · rw [he]
      refine ⟨fun hg => ?_, fun hd => absurd hd (not_delivers_waiting hp userId)⟩
      cases ht.symm.trans (hg.1 hq)
    · rw [he]
      have hhead : ∀ y ∈ (s.queue userId).head?, y = x := by simp [hq]
      refine ⟨fun hg => h.popped hp hq (hg.2 x (by simp [hq])), fun hd => ?_⟩
      refine ⟨fun hempty => by simp [hq] at hempty, fun y hy => ?_⟩
      rw [hhead y hy]
      exact (balanced_popped_iff h hp hq).1 hd.balanced
  | timeout =>
    obtain ⟨w, hw, -⟩ := Option.bind_eq_some_iff.1 hs
    cases h.idle.symm.trans hw
  | close p =>
    obtain ⟨t, hp, hs⟩ := Option.bind_eq_some_iff.1 hs
    split_ifs at hs
    cases hs
    refine ⟨fun _ => ?_, fun _ => trivial⟩
    exact h.set (List.mem_of_getElem? hp) (fun _ => rfl) rfl (fun ho => by cases ho) rfl rfl

theorem Inv.init (hs : system.init s) : Inv s := by
  rw [show s = ⟨fun _ => none, [], none, 0⟩ from hs]
  exact ⟨rfl, by simp, by simp, by simp [State.queue], by simp⟩

/-- A provider that is called as often as there are frames in the queue of its user, none of them
    owed to another stream, has written all that the stream is owed. -/
theorem Inv.drains (h : Inv s) (hp : s.streams[p]? = some t) (hpc : t.phase = .streaming)
    (hown : ∀ x ∈ s.queue t.userId, ¬s.owes p x) :
    ∃ s' t', system.Exec Served s
        (List.replicate (s.queue t.userId).length (.pop p t.userId)) s' ∧
      s'.streams[p]? = some t' ∧ t'.owed = t.owed ∧
      t'.written.filter (· ∈ t'.owed) = t'.owed := by
  induction hl : s.queue t.userId generalizing s t with
  | nil =>
    have hb : t.written.filter (· ∈ t.owed) ++ (s.queue t.userId).filter (· ∈ t.owed) = t.owed :=
      h.balanced t (List.mem_of_getElem? hp) (by rw [Stream.isOpen, hpc]; rfl)
    rw [hl, List.filter_nil, List.append_nil] at hb
    exact ⟨s, t, .nil s, hp, rfl, hb⟩
  | cons x rest ih =>
    rcases pop_cases s p t t.userId with ⟨hq, -, -⟩ | ⟨hq, -, -⟩ | ⟨x', ch, hq, he⟩
    · cases hl.symm.trans hq
    · cases hl.symm.trans hq
    · obtain ⟨rfl, rfl⟩ : x' = x ∧ ch.events = rest := by
        rw [hl] at hq
        exact ⟨(List.cons.inj hq).1.symm, (List.cons.inj hq).2.symm⟩
      have howes : ¬s.owes p x' := hown x' (hq ▸ List.mem_cons_self)
      have hserved : Served s (.pop p t.userId) := by
        refine ⟨fun hempty => by simp [hq] at hempty, fun y hy => ?_⟩
        obtain rfl : y = x' := by simpa [hq] using hy.symm
        exact howes
      have hs : system.step s (.pop p t.userId) = some (s.popped p t t.userId x' ch) := by
        change step s (.pop p t.userId) = _
        rw [step, hp, Option.bind_some, if_pos ⟨h.idle, hpc⟩, he, State.popped]
      have hqueue : (s.popped p t t.userId x' ch).queue t.userId = ch.events :=
        (queue_put s t.userId t.userId ch).trans (if_pos rfl)
      have hp' : (s.popped p t t.userId x' ch).streams[p]? = some (t.write (some x')) :=
        getElem?_set_of_some hp
      -- the other streams are as before
      have hown' : ∀ y ∈ (s.popped p t t.userId x' ch).queue t.userId,
          ¬(s.popped p t t.userId x' ch).owes p y := by
        intro y hy
        refine not_owes_iff.2 fun q z hz hne ho => ?_
        refine not_owes_iff.1 (hown y ?_) q z ?_ hne ho
        · exact hq ▸ List.mem_cons_of_mem _ (hqueue ▸ hy)
        · exact (List.getElem?_set_ne (Ne.symm hne)).symm.trans hz
      obtain ⟨s', t', hl', ht', ho, hw⟩ := ih (h.popped hp hq howes) hp' hpc hown' hqueue
      exact ⟨s', t', .cons hserved hs hl', ht', ho, hw⟩

/-- In every run whose steps are served, every open stream has its frames, and no push or pop waits
    for the stream of another user; a provider that is called often enough has written, once and in
    order, what was pushed while its stream was open. And a step that is not served ends this. -/
theorem delivers_of_reach (s : State) (h : system.Reach Served s) :
    Delivers s ∧
    (∀ p t, s.streams[p]? = some t → t.phase = .streaming →
      (∀ x ∈ s.queue t.userId, ¬s.owes p x) →
      ∃ s' t', system.Exec Served s
          (List.replicate (s.queue t.userId).length (.pop p t.userId)) s' ∧
        s'.streams[p]? = some t' ∧ t'.owed = t.owed ∧
        t'.written.filter (· ∈ t'.owed) = t'.owed) ∧
    ∀ a s', step s a = some s' → (Delivers s' ↔ Served s a) := by
  have hi : Inv s := h.invariant (fun _ => Inv.init) fun _ _ _ ht hg hs => (step_spec ht hs).1 hg
  refine ⟨hi.delivers, fun p t => hi.drains, fun a s' hs => ?_⟩
  obtain ⟨hinv, hserved⟩ := step_spec hi hs
  exact ⟨hserved, fun hg => (hinv hg).delivers⟩

/-- Two frames are pushed while the handler has not left yet, and its stream writes both. -/
theorem delivers_of_reach_early : ∃ s : State,
    s.streams = [⟨7, .streaming, [some ⟨0, 7, bytes "a"⟩, some ⟨1, 7, bytes "b"⟩],
      [⟨0, 7, bytes "a"⟩, ⟨1, 7, bytes "b"⟩]⟩] ∧ Delivers s := by
  obtain ⟨s, hl, hs⟩ := System.exists_exec_of_runGuarded
    (S := system) (G := Served) (s := ⟨fun _ => none, [], none, 0⟩)
    (l := [.join 7, .push 7 (bytes "a"), .push 7 (bytes "b"), .leave 0, .pop 0 7, .pop 0 7])
    (p := fun s => s.streams = [⟨7, .streaming, [some ⟨0, 7, bytes "a"⟩, some ⟨1, 7, bytes "b"⟩],
      [⟨0, 7, bytes "a"⟩, ⟨1, 7, bytes "b"⟩]⟩]) (by decide +kernel)
  exact ⟨s, of_decide_eq_true hs, (delivers_of_reach s ⟨_, _, rfl, hl⟩).1⟩

/-- A frame that is pushed after the handler has left is lost, though the stream is open. -/
theorem push_lost : ∃ s : State, system.Reach System.Always s ∧ ¬Delivers s := by
  obtain ⟨s, hl, hs⟩ := System.exists_exec_of_run
    (S := system) (s := ⟨fun _ => none, [], none, 0⟩)
    (l := [.join 7, .leave 0, .push 7 (bytes "a")])
    (p := fun s => s.streams = [⟨7, .streaming, [], [⟨0, 7, bytes "a"⟩]⟩] ∧ s.queue 7 = [])
    (by decide +kernel)
  obtain ⟨hstreams, hqueue⟩ := of_decide_eq_true hs
  refine ⟨s, ⟨_, _, rfl, hl⟩, fun hd => ?_⟩
  have hb := hd.balanced _ (hstreams ▸ List.mem_singleton_self _) rfl
  rw [hqueue] at hb
  simp [Stream.Balanced, Stream.written] at hb

/-- The stream of a user waits while a second one is being opened: nothing can be pushed to another
    user. -/
theorem idle_stream_blocks : ∃ s : State, system.Reach System.Always s ∧
    ¬s.Free 8 (.push 8 (bytes "a")) := by
  obtain ⟨s, hl, hs⟩ := System.exists_exec_of_run
    (S := system) (s := ⟨fun _ => none, [], none, 0⟩)
    (l := [.join 7, .leave 0, .join 7, .pop 0 7])
    (p := fun s => s.waiting = some (0, 7) ∧ s.streams.map Stream.userId = [7, 7])
    (by decide +kernel)
  obtain ⟨hwaiting, husers⟩ := of_decide_eq_true hs
  refine ⟨s, ⟨_, _, rfl, hl⟩, ?_⟩
  rintro (hfree | ⟨p, t, v, -, ht, hu⟩)
  · simp [step, hwaiting] at hfree
  · have := List.mem_map_of_mem (f := Stream.userId) (List.mem_of_getElem? ht)
    simp [husers, hu] at this

end LiteCode.NotificationBroadcaster
