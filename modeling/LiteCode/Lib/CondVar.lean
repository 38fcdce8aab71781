import Mathlib.Data.List.Basic

/-!
# Waiting on a condition variable

A thread that waits for a predicate evaluates it under a mutex and, when it is false, blocks and
releases the mutex in one step. The evaluation and the blocking are two steps: a thread in between
(`Waiter.holding`) still holds the mutex, but is not woken by a notification that comes now.

A notification wakes threads that are blocked already, and no thread wakes by itself. The woken
thread evaluates the predicate again.

* `Waiter.wake`: one notified thread;
* `notifyAll`, `notifyOne`: the threads after a notification;
* `not_asleep_notifyAll`: no thread sleeps on after a notification to all that finds none in
  between.
-/

namespace LiteCode

universe u

/-- A thread that waits on a condition variable, among other things. -/
inductive Waiter (β : Type u)
  /-- At a point `b` of its code, outside the wait. -/
  | awake (b : β)
  /-- In the wait: the predicate was false, the mutex is held. -/
  | holding
  /-- In the wait: blocked, the mutex is released. -/
  | blocked
  deriving DecidableEq, Repr

namespace Waiter

variable {β : Type u} {b : β} {l l' : List (Waiter β)} {w : Waiter β}

/-- The thread needs a notification to go on, now or after its next step. -/
def Asleep : Waiter β → Prop
  | awake _ => False
  | holding => True
  | blocked => True

@[simp] theorem not_asleep_awake : ¬ (awake b).Asleep := id

@[simp] theorem asleep_holding : (holding : Waiter β).Asleep := trivial

@[simp] theorem asleep_blocked : (blocked : Waiter β).Asleep := trivial

/-- A notified thread goes on at `b`, to evaluate the predicate. -/
def wake (b : β) : Waiter β → Waiter β
  | blocked => awake b
  | w => w

theorem asleep_wake : (wake b w).Asleep ↔ w = holding := by
  cases w <;> simp [wake]

theorem wake_eq_awake {c : β} (h : wake b w = awake c) : w = awake c ∨ w = blocked ∧ c = b := by
  cases w with
  | awake d => exact Or.inl h
  | holding => cases h
  | blocked =>
    cases h
    exact Or.inr ⟨rfl, rfl⟩

/-- `notify_all`. -/
def notifyAll (b : β) (l : List (Waiter β)) : List (Waiter β) := l.map (wake b)

/-- A notification to all leaves no thread asleep if none is between a false predicate and the
    wait. -/
theorem not_asleep_notifyAll (h : holding ∉ l) : ∀ w ∈ notifyAll b l, ¬ w.Asleep := by
  intro w hw ha
  obtain ⟨v, hv, rfl⟩ := List.mem_map.1 hw
  rw [asleep_wake] at ha
  exact h (ha ▸ hv)

/-- `notify_one`: the blocked thread `k` is woken, or none if none is blocked. -/
def notifyOne [DecidableEq β] (b : β) (l : List (Waiter β)) (k : Option Nat) :
    Option (List (Waiter β)) :=
  match k with
  | none => if blocked ∈ l then none else some l
  | some k => if l[k]? = some blocked then some (l.set k (awake b)) else none

theorem notifyOne_cases [DecidableEq β] {k : Option Nat} (h : notifyOne b l k = some l') :
    (blocked ∉ l ∧ l' = l) ∨ ∃ k, l[k]? = some blocked ∧ l' = l.set k (awake b) := by
  cases k with
  | none =>
    rw [notifyOne] at h
    split at h
    · cases h
    · cases h
      exact Or.inl ⟨‹_›, rfl⟩
  | some k =>
    rw [notifyOne] at h
    split at h
    · cases h
      exact Or.inr ⟨k, ‹_›, rfl⟩
    · cases h

end Waiter

end LiteCode
