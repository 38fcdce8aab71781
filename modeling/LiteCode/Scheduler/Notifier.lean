import Mathlib.Data.List.Perm.Basic
import Mathlib.Logic.Function.Basic
import LiteCode.Db.SubmissionRepo
import LiteCode.Lib.System

/-!
# The notifier

`JudgeNotifier` and `SubscriberScope` of `src/judge/judge_notifier.h`. Callbacks wait for the
result of a submission; `publish` takes all those of the row's id out of the table, in one section
of its lock, and then calls them one after the other. A step is such a section, or one callback, or
what a scope does without the notifier; the calls of any number of threads are interleaved.

A subscription is known by its handle. What is to become of it is said by a ledger: it is live
until it is unsubscribed, or until a publication for its id takes it, and then it is called once
with the row.

`unsubscribe` does not look at the handle: it drops the subscription of the id that was added last.
The notifier agrees with the ledger in every state of a run in which this is the one with the
handle, or there is none left (`agrees_of_reach`); two subscribers of one submission are enough to
have it otherwise (`last_dropped`).
-/

namespace LiteCode.JudgeNotifier

open SubmissionRepo

/-! ## The notifier and its scopes -/

/-- `JudgeNotifier`: the callbacks that wait for a submission, in the order in which they were
    added, each known by the handle that it captures. An id that is not in the map has none. -/
structure Notifier where
  subs : Int → List Nat
  nextId : Nat

/-- A notifier without subscribers. -/
def Notifier.new : Notifier := ⟨fun _ => [], 0⟩

/-- `publish`, its locked section: the callbacks to be called. -/
def Notifier.publish (n : Notifier) (row : SubmissionRow) : List Nat × Notifier :=
  (n.subs row.id, { n with subs := Function.update n.subs row.id [] })

/-- `subscribe`, with a callback or with an empty one: the handle is counted in a `size_t`. -/
def Notifier.subscribe (n : Notifier) (id : Int) (callback : Bool) : Except Bytes Nat × Notifier :=
  if !callback then (.error (bytes "subscribe: callback must be non-null"), n)
  else
    let handle := (n.nextId + 1) % 2 ^ 64
    (.ok handle, ⟨Function.update n.subs id (n.subs id ++ [handle]), handle⟩)

/-- `unsubscribe`: the handle is not used. -/
def Notifier.unsubscribe (n : Notifier) (id : Int) (_handle : Nat) : Notifier :=
  { n with subs := Function.update n.subs id (n.subs id).dropLast }

/-- `SubscriberScope`: whether it points to the notifier, the submission and the handle. -/
structure Scope where
  attached : Bool := false
  submissionId : Int := 0
  handle : Nat := 0
  deriving DecidableEq, Repr

/-- The subscription that `reset` gives up. -/
def Scope.held (scope : Scope) : Option (Int × Nat) :=
  if scope.attached && scope.handle != 0 then some (scope.submissionId, scope.handle) else none

/-! ## Runs -/

/-- A call of `publish` that has left its locked section: the row, and the callbacks that it has
    not called yet. -/
structure Publication where
  row : SubmissionRow
  rest : List Nat
  deriving DecidableEq, Repr

/-- The sections of the lock, in the order in which they were taken. -/
inductive Call
  | subscribe (id : Int) (handle : Nat)
  | unsubscribe (id : Int) (handle : Nat)
  | publish (row : SubmissionRow)
  deriving DecidableEq, Repr

/-- The notifier, the calls of `publish` so far, the callbacks that were called, and the sections
    of the lock so far. -/
structure Core where
  notifier : Notifier
  publications : List Publication
  log : List (Nat × SubmissionRow)
  history : List Call

/-- The state: scopes are objects of the program, known by a name. -/
structure State extends Core where
  scopes : Nat → Option Scope

namespace Core

/-- A call of `subscribe` with a callback, and its handle. -/
def subscribe (c : Core) (id : Int) : Nat × Core :=
  match c.notifier.subscribe id true with
  | (.ok handle, n) => (handle, { c with
      notifier := n, history := c.history ++ [.subscribe id handle] })
  | (.error _, _) => (0, c)

def unsubscribe (c : Core) (id : Int) (handle : Nat) : Core :=
  { c with
    notifier := c.notifier.unsubscribe id handle
    history := c.history ++ [.unsubscribe id handle] }

/-- The locked section of a call of `publish`. -/
def publish (c : Core) (row : SubmissionRow) : Core :=
  let (snapshot, n) := c.notifier.publish row
  { c with
    notifier := n
    publications := c.publications ++ [⟨row, snapshot⟩]
    history := c.history ++ [.publish row] }

/-- The next callback of a call of `publish`. -/
def callback (c : Core) (k : Nat) : Option Core :=
  match c.publications[k]? with
  | some ⟨row, handle :: rest⟩ => some { c with
      publications := c.publications.set k ⟨row, rest⟩
      log := c.log ++ [(handle, row)] }
  | _ => none

end Core

/-- The steps. A callback may make calls of its own: they are steps, too. -/
inductive Action
  /-- A call of `subscribe`, with an empty callback or not. -/
  | subscribe (id : Int) (callback : Bool)
  | unsubscribe (id : Int) (handle : Nat)
  | publish (row : SubmissionRow)
  /-- The next callback of the `k`-th call of `publish`. -/
  | callback (k : Nat)
  | newScope (v : Nat)
  /-- A scope for a notifier, or for the null pointer. (The constructor is `noexcept`: with an
      empty callback it ends the process.) -/
  | newScopeFor (v : Nat) (notifier : Bool) (id : Int)
  | moveScope (v w : Nat)
  | assignScope (v w : Nat)
  | releaseScope (v : Nat)
  | resetScope (v : Nat)
  | destroyScope (v : Nat)

namespace State

/-- Set a scope. -/
def setScope (s : State) (v : Nat) (scope : Option Scope) : State :=
  { s with scopes := Function.update s.scopes v scope }

/-- `reset` of a scope: unsubscribe, then `release`. -/
def reset (s : State) (v : Nat) : State :=
  let c := match (s.scopes v).bind Scope.held with
    | some (id, handle) => s.toCore.unsubscribe id handle
    | none => s.toCore
  { s with toCore := c }.setScope v (some {})

end State

/-- The state after a step. -/
def step (s : State) : Action → Option State
  | .subscribe id callback =>
    some (if callback then { s with toCore := (s.toCore.subscribe id).2 } else s)
  | .unsubscribe id handle => some { s with toCore := s.toCore.unsubscribe id handle }
  | .publish row => some { s with toCore := s.toCore.publish row }
  | .callback k => (s.toCore.callback k).map fun c => { s with toCore := c }
  | .newScope v => if (s.scopes v).isSome then none else some (s.setScope v (some {}))
  | .newScopeFor v notifier id =>
    if (s.scopes v).isSome then none
    else if notifier then
      let (handle, c) := s.toCore.subscribe id
      some ({ s with toCore := c }.setScope v (some ⟨true, id, handle⟩))
    else some (s.setScope v (some ⟨false, id, 0⟩))
  | .moveScope v w =>
    match s.scopes v, s.scopes w with
    | none, some scope => some ((s.setScope v (some scope)).setScope w (some {}))
    | _, _ => none
  | .assignScope v w =>
    match s.scopes v, s.scopes w with
    | some _, some scope =>
      some (if v = w then s else ((s.reset v).setScope v (some scope)).setScope w (some {}))
    | _, _ => none
  | .releaseScope v => (s.scopes v).map fun _ => s.setScope v (some {})
  | .resetScope v => (s.scopes v).map fun _ => s.reset v
  | .destroyScope v => (s.scopes v).map fun _ => (s.reset v).setScope v none

/-- A notifier, from its construction on. -/
def system : System State Action where
  init s := s = ⟨⟨.new, [], [], []⟩, fun _ => none⟩
  step := step

/-- The call of `unsubscribe` that a step makes. -/
def unsubscribes (s : State) : Action → Option (Int × Nat)
  | .unsubscribe id handle => some (id, handle)
  | .assignScope v w => if v = w then none else (s.scopes v).bind Scope.held
  | .resetScope v => (s.scopes v).bind Scope.held
  | .destroyScope v => (s.scopes v).bind Scope.held
  | _ => none

/-- A call of `unsubscribe` finds its own subscription last, or none; and the handles have not
    been used up. -/
def Own (s : State) (a : Action) : Prop :=
  (∀ p ∈ unsubscribes s a, s.notifier.subs p.1 = [] ∨
    (s.notifier.subs p.1).getLast? = some p.2) ∧ s.notifier.nextId + 1 < 2 ^ 64

instance (s : State) (a : Action) : Decidable (Own s a) :=
  inferInstanceAs (Decidable ((∀ p ∈ unsubscribes s a, _) ∧ _))

/-! ## The ledger -/

/-- What has become of a subscription. -/
inductive Fate
  | live (id : Int)
  | dropped
  /-- The `k`-th publication has taken it. -/
  | taken (k : Nat)
  deriving DecidableEq, Repr

/-- The fates of the handles, and the rows published so far. -/
structure Ledger where
  fate : Nat → Option Fate
  rows : List SubmissionRow

namespace Ledger

def empty : Ledger := ⟨fun _ => none, []⟩

/-- What a call is to do: `unsubscribe` drops the live subscription with its handle, and `publish`
    takes the live ones of the row's id. -/
def step (l : Ledger) : Call → Ledger
  | .subscribe id handle => { l with fate := Function.update l.fate handle (some (.live id)) }
  | .unsubscribe id handle =>
    if l.fate handle = some (.live id) then
      { l with fate := Function.update l.fate handle (some .dropped) }
    else l
  | .publish row => {
      fate := fun h => if l.fate h = some (.live row.id) then some (.taken l.rows.length)
        else l.fate h
      rows := l.rows ++ [row] }

/-- The ledger after some calls. -/
def after (calls : List Call) : Ledger := calls.foldl step empty

/-- The calls that a subscription is to get. -/
def owed (l : Ledger) (h : Nat) : List SubmissionRow :=
  match l.fate h with
  | some (.taken k) => l.rows[k]?.toList
  | _ => []

end Ledger

namespace Core

/-- The ledger of a state. -/
def ledger (c : Core) : Ledger := Ledger.after c.history

/-- The rows that the callback of a handle was called with. -/
def received (c : Core) (h : Nat) : List SubmissionRow :=
  c.log.filterMap fun p => if p.1 = h then some p.2 else none

/-- The rows that it is still to be called with. -/
def awaited (c : Core) (h : Nat) : List SubmissionRow :=
  c.publications.flatMap fun p => (p.rest.filter (· = h)).map fun _ => p.row

/-- The notifier agrees with the ledger: the callbacks in its table are the live subscriptions,
    and every subscription that a publication has taken is called once, with its row, and no other
    one is called. -/
structure Agrees (c : Core) : Prop where
  live : ∀ id h, h ∈ c.notifier.subs id ↔ c.ledger.fate h = some (.live id)
  once : ∀ h, (c.received h ++ c.awaited h).Perm (c.ledger.owed h)

end Core

/-! ## One step -/

variable {s s' : State} {a : Action} {c : Core} {id : Int} {handle h k : Nat}
  {row : SubmissionRow}

/-- What a reset does to the notifier. -/
theorem toCore_reset (s : State) (v : Nat) :
    (s.reset v).toCore = match (s.scopes v).bind Scope.held with
      | some (id, handle) => s.toCore.unsubscribe id handle
      | none => s.toCore := rfl

/-- A step does nothing to the notifier, or makes one call, or one callback. -/
theorem step_core (hs : step s a = some s') :
    s'.toCore = s.toCore ∨ (∃ id, s'.toCore = (s.toCore.subscribe id).2) ∨
      (∃ id handle, unsubscribes s a = some (id, handle) ∧
        s'.toCore = s.toCore.unsubscribe id handle) ∨
      (∃ row, s'.toCore = s.toCore.publish row) ∨ ∃ k, s.toCore.callback k = some s'.toCore := by
  -- the three ways to reset a scope
  have hreset : ∀ v, (s.reset v).toCore = s.toCore ∨ ∃ id handle,
      (s.scopes v).bind Scope.held = some (id, handle) ∧
        (s.reset v).toCore = s.toCore.unsubscribe id handle := by
    intro v
    rw [toCore_reset]
    cases h : (s.scopes v).bind Scope.held with
    | none => exact .inl rfl
    | some p => exact .inr ⟨p.1, p.2, rfl, rfl⟩
  cases a with
  | subscribe id callback =>
    cases callback with
    | false =>
      cases hs
      exact .inl rfl
    | true =>
      cases hs
      exact .inr (.inl ⟨id, rfl⟩)
  | unsubscribe id handle =>
    cases hs
    exact .inr (.inr (.inl ⟨id, handle, rfl, rfl⟩))
  | publish row =>
    cases hs
    exact .inr (.inr (.inr (.inl ⟨row, rfl⟩)))
  | callback k =>
    obtain ⟨c, hc, rfl⟩ := Option.map_eq_some_iff.1 hs
    exact .inr (.inr (.inr (.inr ⟨k, hc⟩)))
  | newScope v =>
    simp only [step] at hs
    split_ifs at hs
    cases hs
    exact .inl rfl
  | newScopeFor v notifier id =>
    simp only [step] at hs
    split_ifs at hs
    · cases hs
      exact .inr (.inl ⟨id, rfl⟩)
    · cases hs
      exact .inl rfl
  | moveScope v w =>
    simp only [step] at hs
    split at hs <;> cases hs
    exact .inl rfl
  | assignScope v w =>
    simp only [step] at hs
    split at hs <;> cases hs
    split_ifs with hvw
    · exact .inl rfl
    · rcases hreset v with hv | ⟨id, handle, hv, hc⟩
      · exact .inl hv
      · exact .inr (.inr (.inl ⟨id, handle, by simpa [unsubscribes, hvw] using hv, hc⟩))
  | releaseScope v =>
    obtain ⟨_, -, rfl⟩ := Option.map_eq_some_iff.1 hs
    exact .inl rfl
  | resetScope v =>
    obtain ⟨_, -, rfl⟩ := Option.map_eq_some_iff.1 hs
    rcases hreset v with hv | ⟨id, handle, hv, hc⟩
    · exact .inl hv
    · exact .inr (.inr (.inl ⟨id, handle, hv, hc⟩))
  | destroyScope v =>
    obtain ⟨_, -, rfl⟩ := Option.map_eq_some_iff.1 hs
    rcases hreset v with hv | ⟨id, handle, hv, hc⟩
    · exact .inl hv
    · exact .inr (.inr (.inl ⟨id, handle, hv, hc⟩))

namespace Core

theorem ledger_append {calls : List Call} {call : Call} :
    Ledger.after (calls ++ [call]) = (Ledger.after calls).step call := by
  rw [Ledger.after, List.foldl_append]
  rfl

/-- The notifier agrees with the ledger, and what is needed for it to stay so. -/
structure Inv (c : Core) : Prop extends Agrees c where
  nodup : ∀ id, (c.notifier.subs id).Nodup
  bound : ∀ h f, c.ledger.fate h = some f → h ≤ c.notifier.nextId
  rows : c.ledger.rows = c.publications.map (·.row)
  taken : ∀ h k, c.ledger.fate h = some (.taken k) → k < c.publications.length
  rest : ∀ k p, c.publications[k]? = some p → ∀ h ∈ p.rest, c.ledger.fate h = some (.taken k)

/-- Only a subscription that is taken is owed a call. -/
theorem owed_eq_nil {l : Ledger} (h : ∀ k, l.fate handle ≠ some (.taken k)) :
    l.owed handle = [] := by
  unfold Ledger.owed
  split
  · next k hk => exact absurd hk (h k)
  · rfl

/-- A change of one subscription that is not taken, before and after it. -/
theorem Inv.of_fate {c' : Core} (hc : c.Inv) (x : Nat) (hpub : c'.publications = c.publications)
    (hlog : c'.log = c.log) (hrows : c'.ledger.rows = c.ledger.rows)
    (hfate : ∀ h, h ≠ x → c'.ledger.fate h = c.ledger.fate h)
    (hx : ∀ k, c.ledger.fate x ≠ some (.taken k)) (hx' : ∀ k, c'.ledger.fate x ≠ some (.taken k))
    (hnext : c.notifier.nextId ≤ c'.notifier.nextId)
    (hbound : ∀ f, c'.ledger.fate x = some f → x ≤ c'.notifier.nextId)
    (hlive : ∀ id h, h ∈ c'.notifier.subs id ↔ c'.ledger.fate h = some (.live id))
    (hnodup : ∀ id, (c'.notifier.subs id).Nodup) : c'.Inv := by
  have hne : ∀ h k, c'.ledger.fate h = some (.taken k) → h ≠ x := fun h k hk he =>
    hx' k (he ▸ hk)
  refine ⟨⟨hlive, fun h => ?_⟩, hnodup, fun h f hf => ?_, ?_, fun h k hk => ?_,
    fun k p hk h hh => ?_⟩
  · have h₀ := hc.once h
    rw [received, awaited, hpub, hlog]
    by_cases hh : h = x
    · rw [hh, owed_eq_nil hx] at h₀
      rwa [hh, owed_eq_nil hx']
    · rwa [Ledger.owed, hfate h hh, hrows]
  · by_cases hh : h = x
    · exact hh ▸ hbound f (hh ▸ hf)
    · exact Nat.le_trans (hc.bound h f (hfate h hh ▸ hf)) hnext
  · rw [hrows, hpub, hc.rows]
  · rw [hpub]
    exact hc.taken h k (hfate h (hne h k hk) ▸ hk)
  · rw [hpub] at hk
    have h₀ := hc.rest k p hk h hh
    rwa [hfate h fun he => hx k (he ▸ h₀)]

/-- `subscribe`, as long as the handles do not run out. -/
theorem subscribe_eq (hn : c.notifier.nextId + 1 < 2 ^ 64) (id : Int) :
    (c.subscribe id).2 = { c with
      notifier := ⟨Function.update c.notifier.subs id
        (c.notifier.subs id ++ [c.notifier.nextId + 1]), c.notifier.nextId + 1⟩
      history := c.history ++ [.subscribe id (c.notifier.nextId + 1)] } := by
  simp only [Core.subscribe, Notifier.subscribe, Bool.not_true, Bool.false_eq_true, if_false,
    Nat.mod_eq_of_lt hn]

theorem Inv.subscribe (hc : c.Inv) (hn : c.notifier.nextId + 1 < 2 ^ 64) (id : Int) :
    (c.subscribe id).2.Inv := by
  have hnew : c.ledger.fate (c.notifier.nextId + 1) = none := by
    cases hf : c.ledger.fate (c.notifier.nextId + 1) with
    | none => rfl
    | some f => exact absurd (hc.bound _ f hf) (Nat.not_succ_le_self _)
  -- The number is a new one: those that have a fate are bounded by the counter.
  have hfresh : ∀ id', c.notifier.nextId + 1 ∉ c.notifier.subs id' := fun id' hm => by
    rw [hc.live, hnew] at hm
    cases hm
  rw [subscribe_eq hn]
  have hl : Ledger.after (c.history ++ [.subscribe id (c.notifier.nextId + 1)]) =
      c.ledger.step (.subscribe id (c.notifier.nextId + 1)) := ledger_append
  have hfate : ∀ h, h ≠ c.notifier.nextId + 1 →
      (Ledger.after (c.history ++ [.subscribe id (c.notifier.nextId + 1)])).fate h =
        c.ledger.fate h := fun h hh => by
    rw [hl]
    exact Function.update_of_ne hh ..
  have hfate' : (Ledger.after (c.history ++ [.subscribe id (c.notifier.nextId + 1)])).fate
      (c.notifier.nextId + 1) = some (.live id) := by
    rw [hl]
    exact Function.update_self ..
  refine hc.of_fate (c.notifier.nextId + 1) rfl rfl (by rw [ledger, hl]; rfl) hfate (by simp [hnew])
    (by simp [ledger, hfate']) (Nat.le_succ _) (fun _ _ => Nat.le_refl _) (fun id' h => ?_)
    fun id' => ?_
  · rw [ledger]
    by_cases hh : h = c.notifier.nextId + 1
    · rw [hh, hfate']
      by_cases hid : id' = id
      · simp [hid]
      · simp [hid, hfresh id', Ne.symm hid]
    · rw [hfate h hh, ← hc.live]
      by_cases hid : id' = id
      · simp [hid, hh]
      · simp [hid]
  · by_cases hid : id' = id
    · have hdisj : ∀ a ∈ c.notifier.subs id, a ≠ c.notifier.nextId + 1 := fun a ha he =>
        hfresh id (he ▸ ha)
      simpa [hid, List.nodup_append, hc.nodup id] using hdisj
    · simpa [hid] using hc.nodup id'

/-- A call that changes neither the notifier nor the ledger. -/
theorem Inv.of_ledger {c' : Core} (hc : c.Inv) (hledger : c'.ledger = c.ledger)
    (hnotifier : c'.notifier = c.notifier) (hpub : c'.publications = c.publications)
    (hlog : c'.log = c.log) : c'.Inv where
  live id h := by
    rw [hledger, hnotifier]
    exact hc.live id h
  once h := by
    rw [hledger, Core.received, awaited, hpub, hlog]
    exact hc.once h
  nodup := hnotifier ▸ hc.nodup
  bound := by
    rw [hledger, hnotifier]
    exact hc.bound
  rows := by
    rw [hledger, hpub]
    exact hc.rows
  taken := by
    rw [hledger, hpub]
    exact hc.taken
  rest := by
    rw [hledger, hpub]
    exact hc.rest

/-- `unsubscribe`, when it finds its own subscription last, or none. -/
theorem Inv.unsubscribe (hc : c.Inv)
    (hown : c.notifier.subs id = [] ∨ (c.notifier.subs id).getLast? = some handle) :
    (c.unsubscribe id handle).Inv := by
  have hl : (c.unsubscribe id handle).ledger = c.ledger.step (.unsubscribe id handle) :=
    ledger_append
  rcases hown with hnil | hlast
  · -- nothing to drop
    have hfate : c.ledger.fate handle ≠ some (.live id) := fun hf => by
      rw [← hc.live, hnil] at hf
      cases hf
    have hsame : (c.unsubscribe id handle).ledger = c.ledger := by
      rw [hl, Ledger.step, if_neg hfate]
    have hsubs : (c.unsubscribe id handle).notifier = c.notifier := by
      simp only [Core.unsubscribe, Notifier.unsubscribe, hnil, List.dropLast_nil]
      rw [← hnil, Function.update_eq_self]
    exact hc.of_ledger hsame hsubs rfl rfl
  · obtain ⟨rest, hrest⟩ : ∃ rest, c.notifier.subs id = rest ++ [handle] :=
      List.getLast?_eq_some_iff.1 hlast
    have hnodup := hc.nodup id
    rw [hrest, List.nodup_append] at hnodup
    have hnot : handle ∉ rest := fun hm => hnodup.2.2 handle hm handle (by simp) rfl
    have hlive : c.ledger.fate handle = some (.live id) := by
      rw [← hc.live, hrest]
      simp
    rw [Ledger.step, if_pos hlive] at hl
    have hfate : ∀ h, h ≠ handle → (c.unsubscribe id handle).ledger.fate h = c.ledger.fate h :=
      fun h hh => by
        rw [hl]
        exact Function.update_of_ne hh ..
    have hfate' : (c.unsubscribe id handle).ledger.fate handle = some .dropped := by
      rw [hl]
      exact Function.update_self ..
    have hsubs : (c.unsubscribe id handle).notifier.subs id = rest := by
      simp [Core.unsubscribe, Notifier.unsubscribe, hrest]
    have hsubs' : ∀ id', id' ≠ id →
        (c.unsubscribe id handle).notifier.subs id' = c.notifier.subs id' := fun id' hid =>
      Function.update_of_ne hid ..
    refine hc.of_fate handle rfl rfl (by rw [hl]) hfate (by simp [hlive]) (by simp [hfate'])
      (Nat.le_refl _) (fun _ _ => hc.bound handle _ hlive) (fun id' h => ?_) fun id' => ?_
    · by_cases hh : h = handle
      · rw [hh, hfate']
        by_cases hid : id' = id
        · simp [hid, hsubs, hnot]
        · rw [hsubs' id' hid, hc.live, hlive]
          simp [Ne.symm hid]
      · rw [hfate h hh, ← hc.live]
        by_cases hid : id' = id
        · simp [hid, hsubs, hrest, hh]
        · rw [hsubs' id' hid]
    · by_cases hid : id' = id
      · rw [hid, hsubs]
        exact hnodup.1
      · rw [hsubs' id' hid]
        exact hc.nodup id'

/-- `publish` takes the subscriptions of its row, and leaves the others. -/
theorem publish_subs (id : Int) : (c.publish row).notifier.subs id =
    if id = (row.id : Int) then [] else c.notifier.subs id := by
  split_ifs with hid
  · rw [hid]
    exact Function.update_self ..
  · exact Function.update_of_ne hid ..

theorem publish_rows : (c.publish row).ledger.rows = c.ledger.rows ++ [row] := by
  rw [ledger, Core.publish, ledger_append]
  rfl

theorem Inv.publish_fate (hc : c.Inv) (h : Nat) : (c.publish row).ledger.fate h =
    if c.ledger.fate h = some (.live row.id) then some (.taken c.publications.length)
    else c.ledger.fate h := by
  have hlen : c.ledger.rows.length = c.publications.length := by rw [hc.rows, List.length_map]
  rw [← hlen, ledger, Core.publish, ledger_append]
  rfl

/-- A publication owes its row to the subscriptions that it takes, and nothing to the others. -/
theorem Inv.publish_owed (hc : c.Inv) (h : Nat) : (c.publish row).ledger.owed h =
    if c.ledger.fate h = some (.live row.id) then [row] else c.ledger.owed h := by
  have hlen : c.ledger.rows.length = c.publications.length := by rw [hc.rows, List.length_map]
  rw [Ledger.owed, hc.publish_fate, publish_rows]
  split_ifs with hh
  · rw [← hlen]
    simp
  · rw [Ledger.owed]
    split
    · next k hk => rw [List.getElem?_append_left (hlen ▸ hc.taken h k hk)]
    · rfl

/-- The snapshot of a publication has a subscription that it takes once. -/
theorem Inv.filter_subs (hc : c.Inv) (id : Int) (h : Nat) : (c.notifier.subs id).filter (· = h) =
    if c.ledger.fate h = some (.live id) then [h] else [] := by
  split_ifs with hh
  · rw [List.filter_eq, List.count_eq_one_of_mem (hc.nodup id) ((hc.live id h).2 hh)]
    rfl
  · rw [List.filter_eq_nil_iff]
    intro a ha he
    rw [of_decide_eq_true he, hc.live] at ha
    exact hh ha

theorem Inv.publish_once (hc : c.Inv) (row : SubmissionRow) (h : Nat) :
    ((c.publish row).received h ++ (c.publish row).awaited h).Perm
      ((c.publish row).ledger.owed h) := by
  have hawait : (c.publish row).awaited h = c.awaited h ++
      ((c.notifier.subs row.id).filter (· = h)).map fun _ => row := by
    simp [awaited, Core.publish, Notifier.publish]
  have hrec : (c.publish row).received h = c.received h := rfl
  have h₀ := hc.once h
  rw [hrec, hawait, ← List.append_assoc, hc.filter_subs, hc.publish_owed]
  split_ifs with hh
  · -- taken: it was owed nothing
    rw [owed_eq_nil (by simp [hh])] at h₀
    rw [h₀.eq_nil]
    rfl
  · rw [List.map_nil, List.append_nil]
    exact h₀

/-- `publish` owes one call to each subscription that it takes. -/
theorem Inv.publish (hc : c.Inv) (row : SubmissionRow) : (c.publish row).Inv := by
  have hpub : (c.publish row).publications =
      c.publications ++ [⟨row, c.notifier.subs row.id⟩] := rfl
  refine ⟨⟨fun id h => ?_, hc.publish_once row⟩, fun id => ?_, fun h f hf => ?_, ?_,
    fun h k hk => ?_, fun k p hk h hh => ?_⟩
  · rw [publish_subs, hc.publish_fate]
    by_cases hid : id = row.id
    · rw [if_pos hid, hid]
      split_ifs with hh
      · simp
      · exact iff_of_false List.not_mem_nil hh
    · rw [if_neg hid, hc.live]
      split_ifs with hh
      · simp [hh, Ne.symm hid]
      · rfl
  · rw [publish_subs]
    split_ifs
    · exact List.nodup_nil
    · exact hc.nodup id
  · rw [hc.publish_fate] at hf
    split_ifs at hf with hh
    · exact hc.bound h _ hh
    · exact hc.bound h f hf
  · rw [publish_rows, hpub, hc.rows, List.map_append]
    rfl
  · rw [hpub, List.length_append, List.length_singleton]
    rw [hc.publish_fate] at hk
    split_ifs at hk with hh
    · cases hk
      exact Nat.lt_succ_self _
    · exact Nat.lt_succ_of_lt (hc.taken h k hk)
  · rw [hc.publish_fate]
    rw [hpub, List.getElem?_append] at hk
    split_ifs at hk with hlt
    · have h₀ := hc.rest k p hk h hh
      rw [if_neg (by simp [h₀]), h₀]
    · -- This is the new publication: its subscriptions have been live until now.
      obtain ⟨hkl, rfl⟩ : k = c.publications.length ∧ p = ⟨row, c.notifier.subs row.id⟩ := by
        rw [List.getElem?_singleton] at hk
        split_ifs at hk with hz
        exact ⟨by omega, (Option.some_inj.1 hk).symm⟩
      rw [hkl, if_pos ((hc.live row.id h).1 hh)]

/-- A callback is one of the calls that are owed. -/
theorem Inv.callback {c' : Core} (hc : c.Inv) (h : c.callback k = some c') : c'.Inv := by
  unfold Core.callback at h
  split at h
  · next row handle rest hk =>
    cases h
    obtain ⟨hlt, hget⟩ := List.getElem?_eq_some_iff.1 hk
    obtain ⟨l₁, l₂, hpub, -, hset⟩ : ∃ l₁ l₂, c.publications = l₁ ++ c.publications[k] :: l₂ ∧
        l₁.length = k ∧ c.publications.set k ⟨row, rest⟩ = l₁ ++ ⟨row, rest⟩ :: l₂ :=
      List.exists_of_set hlt
    rw [hget] at hpub
    refine ⟨⟨hc.live, fun h => ?_⟩, hc.nodup, hc.bound, ?_, fun h k' hk' => ?_,
      fun k' p hk' h hh => ?_⟩
    · have hawait : c.awaited h = (l₁ ++ ⟨row, handle :: rest⟩ :: l₂).flatMap fun p =>
          (p.rest.filter (· = h)).map fun _ => p.row := by rw [awaited, hpub]
      have h₀ := hc.once h
      rw [hawait] at h₀
      refine List.Perm.trans ?_ h₀
      simp only [Core.received, awaited, hset, List.filterMap_append, List.flatMap_append,
        List.flatMap_cons, List.append_assoc]
      refine List.Perm.append_left _ ?_
      by_cases hh : handle = h
      · -- the row moves from the calls to come to those made
        simpa [hh] using List.perm_middle.symm
      · simp [hh]
    · rw [hset, List.map_append, List.map_cons]
      exact hc.rows.trans (by rw [hpub, List.map_append, List.map_cons])
    · rw [List.length_set]
      exact hc.taken h k' hk'
    · rw [List.getElem?_set] at hk'
      split_ifs at hk' with hkk
      · cases hk'
        exact hkk ▸ hc.rest k _ hk h (List.mem_cons_of_mem _ hh)
      · exact hc.rest k' p hk' h hh
  · cases h

/-- One step of a run whose calls of `unsubscribe` find their own subscription. -/
theorem Inv.step (hc : s.toCore.Inv) (hown : Own s a)
    (hs : JudgeNotifier.step s a = some s') : s'.toCore.Inv := by
  rcases step_core hs with he | ⟨id, he⟩ | ⟨id, handle, hu, he⟩ | ⟨row, he⟩ | ⟨k, he⟩
  · exact he ▸ hc
  · exact he ▸ hc.subscribe hown.2 id
  · exact he ▸ hc.unsubscribe (hown.1 _ hu)
  · exact he ▸ hc.publish row
  · exact hc.callback he

theorem inv_init : (⟨.new, [], [], []⟩ : Core).Inv where
  live _ _ := iff_of_false List.not_mem_nil nofun
  once _ := .refl _
  nodup _ := List.nodup_nil
  bound _ _ hf := nomatch hf
  rows := rfl
  taken _ _ hk := nomatch hk
  rest _ _ hk := nomatch hk

/-- A publication that has made its calls has called all that it took. -/
theorem Inv.received {p : Publication} (hc : c.Inv) (hk : c.publications[k]? = some p)
    (hrest : p.rest = []) (hh : c.ledger.fate h = some (.taken k)) : c.received h = [p.row] := by
  have hawait : c.awaited h = [] := by
    rw [awaited, List.flatMap_eq_nil_iff]
    intro q hq
    obtain ⟨k', hk'⟩ := List.mem_iff_getElem?.1 hq
    rw [List.map_eq_nil_iff, List.filter_eq_nil_iff]
    intro x hx he
    rw [of_decide_eq_true he] at hx
    have := hc.rest k' q hk' h hx
    rw [hh] at this
    cases this
    rw [hk] at hk'
    cases hk'
    rw [hrest] at hx
    cases hx
  have howed : c.ledger.owed h = [p.row] := by
    rw [Ledger.owed, hh, hc.rows]
    simp [hk]
  have := hc.once h
  rwa [hawait, howed, List.append_nil, List.perm_singleton] at this

end Core

theorem inv_of_reach (h : system.Reach Own s) : s.toCore.Inv := by
  refine h.invariant (P := fun s => s.toCore.Inv) (fun s hs => ?_)
    fun _ _ _ ht hown hs => ht.step hown hs
  rw [show s = _ from hs]
  exact Core.inv_init

/-- In every state of a run whose calls of `unsubscribe` find their own subscription last, or none,
    the notifier agrees with the ledger: exactly the live subscriptions are in its table, and those
    that a publication has taken are called once, with its row. Once a call of `publish` is over,
    it has called all that it took. -/
theorem agrees_of_reach {s : State} (hs : system.Reach Own s) :
    s.toCore.Agrees ∧ ∀ k p, s.publications[k]? = some p → p.rest = [] →
      ∀ h, s.ledger.fate h = some (.taken k) → s.received h = [p.row] :=
  ⟨(inv_of_reach hs).toAgrees, fun _ _ hk hrest _ hh => (inv_of_reach hs).received hk hrest hh⟩

/-- A row that is published. -/
def doneRow : SubmissionRow :=
  ⟨1, 7, 3, bytes "cpp", bytes "x", .ac, some 12, some 300, none, 100, none⟩

/-- The notifier at its start. -/
def start : State := ⟨⟨.new, [], [], []⟩, fun _ => none⟩

/-- Two scopes subscribe; the second one is moved and destroyed, and the first one, which outlives
    the publication, is called once. -/
theorem agrees_of_reach_scopes : ∃ s, system.Reach Own s ∧ s.received 1 = [doneRow] ∧
    s.toCore.Agrees := by
  obtain ⟨s, hs, hp⟩ := System.exists_exec_of_runGuarded (S := system) (G := Own) (s := start)
    (l := [.newScopeFor 0 true 1, .newScopeFor 1 true 1, .moveScope 2 1, .destroyScope 2,
      .publish doneRow, .callback 0, .destroyScope 0, .destroyScope 1])
    (p := fun s => s.publications == [⟨doneRow, []⟩] && s.ledger.fate 1 == some (.taken 0))
    (by decide +kernel)
  simp only [Bool.and_eq_true, beq_iff_eq] at hp
  have hreach : system.Reach Own s := ⟨start, _, rfl, hs⟩
  obtain ⟨hagrees, hreceived⟩ := agrees_of_reach hreach
  exact ⟨s, hreach, hreceived 0 ⟨doneRow, []⟩ (by rw [hp.1]; rfl) rfl 1 hp.2, hagrees⟩

/-- Two subscriptions for one submission: unsubscribing the first one drops the second one. The
    publication calls the first one, and the second one is never called. -/
theorem last_dropped : ∃ s, system.Reach System.Always s ∧ s.ledger.fate 1 = some .dropped ∧
    s.ledger.fate 2 = some (.taken 0) ∧ s.publications = [⟨doneRow, []⟩] ∧
    s.received 1 = [doneRow] ∧ s.received 2 = [] ∧ ¬ s.toCore.Agrees := by
  obtain ⟨s, hs, hp⟩ := System.exists_exec_of_run (S := system) (s := start)
    (l := [.subscribe 1 true, .subscribe 1 true, .unsubscribe 1 1, .publish doneRow, .callback 0])
    (p := fun s => s.ledger.fate 1 == some .dropped && s.ledger.fate 2 == some (.taken 0) &&
      s.publications == [⟨doneRow, []⟩] && s.received 1 == [doneRow] && s.received 2 == [])
    (by decide +kernel)
  simp only [Bool.and_eq_true, beq_iff_eq] at hp
  obtain ⟨⟨⟨⟨hone, htwo⟩, hpub⟩, hfirst⟩, hsecond⟩ := hp
  refine ⟨s, ⟨start, _, rfl, hs⟩, hone, htwo, hpub, hfirst, hsecond, fun h => ?_⟩
  have := h.once 1
  rw [hfirst, Core.owed_eq_nil (by simp [hone])] at this
  exact absurd this.eq_nil (by simp)

end LiteCode.JudgeNotifier
