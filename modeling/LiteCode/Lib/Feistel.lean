import Mathlib.Data.List.Basic

/-!
# Feistel networks

A block is a pair of halves. A round reads the first half and mixes what its round function makes
of it into the second, and the halves change their roles. Whatever the round functions are, a
network is undone by the network of the reversed rounds, with the halves exchanged before and
after it.

The mixing is any operation that undoes itself, such as an exclusive or (`Involutory`).

* `network op fs x`: the rounds `fs` in turn;
* `network_reverse`: the reversed rounds lead back from the exchanged halves.
-/

namespace LiteCode.Feistel

variable {α : Type*}

/-- Mixing the same value in twice changes nothing. -/
def Involutory (op : α → α → α) : Prop := ∀ a b, op (op a b) b = a

/-- One round: the half that was read comes second afterwards. -/
def round (op : α → α → α) (f : α → α) (x : α × α) : α × α := (op x.2 (f x.1), x.1)

/-- The rounds of a network, in turn. -/
def network (op : α → α → α) : List (α → α) → α × α → α × α
  | [], x => x
  | f :: fs, x => network op fs (round op f x)

variable {op : α → α → α}

/-- A round undoes itself, up to the order of the halves. -/
theorem round_swap_round (hop : Involutory op) (f : α → α) (x : α × α) :
    round op f (round op f x).swap = x.swap := by
  rw [round, round, Prod.swap_prod_mk, hop]
  rfl

/-- The rounds of two networks, one after the other. -/
theorem network_append (fs gs : List (α → α)) (x : α × α) :
    network op (fs ++ gs) x = network op gs (network op fs x) := by
  induction fs generalizing x with
  | nil => rfl
  | cons f fs ih => exact ih (round op f x)

/-- A network is undone by its rounds in reverse. -/
theorem network_reverse (hop : Involutory op) (fs : List (α → α)) (x : α × α) :
    network op fs.reverse (network op fs x).swap = x.swap := by
  induction fs generalizing x with
  | nil => rfl
  | cons f fs ih =>
    -- the rounds `fs` are undone first, then `f`
    have hfs : network op fs.reverse (network op (f :: fs) x).swap = (round op f x).swap :=
      ih (round op f x)
    rw [List.reverse_cons, network_append, hfs]
    exact round_swap_round hop f x

end LiteCode.Feistel
