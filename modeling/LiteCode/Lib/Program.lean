import Mathlib.Data.List.Basic

/-!
# Programs with operations

A program does operations, one after the other, and ends with a value or with an error. It is a
tree that branches at what the operations come to. An environment says what an operation comes to
after those before it; with an environment, a program has a *run*.

* `Program.run`: how a program ends, and the operations it does;
* `Program.All P E Q`: whatever the operations come to, all of them satisfy `P`, an error satisfies
  `E`, and a value `Q`; `All.bind` goes along a program, and `All.run` leads to its runs.
-/

namespace LiteCode

/-- Programs with the operations `Op`, of which `o` comes to a `Res o`. -/
inductive Program (Op : Type) (Res : Op → Type) (ε α : Type)
  | ret (a : α)
  | fail (e : ε)
  | op (o : Op) (next : Res o → Program Op Res ε α)

namespace Program

variable {Op : Type} {Res : Op → Type} {ε α β : Type}

/-- One program after another one, unless that fails. -/
def bind : Program Op Res ε α → (α → Program Op Res ε β) → Program Op Res ε β
  | ret a, f => f a
  | fail e, _ => fail e
  | op o next, f => op o fun r => (next r).bind f

instance : Monad (Program Op Res ε) where
  pure := ret
  bind := bind

theorem ret_bind (a : α) (f : α → Program Op Res ε β) : ret a >>= f = f a := rfl

theorem fail_bind (e : ε) (f : α → Program Op Res ε β) : fail e >>= f = fail e := rfl

/-- How a program ends after the operations `past`, and all operations up to there. -/
def run (env : List Op → (o : Op) → Res o) :
    List Op → Program Op Res ε α → Except ε α × List Op
  | past, ret a => (.ok a, past)
  | past, fail e => (.error e, past)
  | past, op o next => run env (past ++ [o]) (next (env past o))

variable {P : Op → Prop} {E : ε → Prop} {Q : α → Prop} {R : β → Prop}

/-- All operations satisfy `P`, all errors `E`, and all values `Q`. -/
def All (P : Op → Prop) (E : ε → Prop) (Q : α → Prop) : Program Op Res ε α → Prop
  | ret a => Q a
  | fail e => E e
  | op o next => P o ∧ ∀ r, All P E Q (next r)

theorem All.bind {m : Program Op Res ε α} {f : α → Program Op Res ε β} (hm : All P E Q m)
    (hf : ∀ a, Q a → All P E R (f a)) : All P E R (m >>= f) := by
  induction m with
  | ret a => exact hf a hm
  | fail e => exact hm
  | op o next ih => exact ⟨hm.1, fun r => ih r (hm.2 r)⟩

/-- A run goes on from the operations that are done. -/
theorem All.run {m : Program Op Res ε α} (h : All P E Q m) (env : List Op → (o : Op) → Res o)
    (past : List Op) :
    ∃ ops, (m.run env past).2 = past ++ ops ∧ (∀ o ∈ ops, P o) ∧
      (∀ e, (m.run env past).1 = .error e → E e) ∧ ∀ a, (m.run env past).1 = .ok a → Q a := by
  induction m generalizing past with
  | ret a =>
    refine ⟨[], (List.append_nil past).symm, ?_, ?_, ?_⟩ <;> rintro _ ⟨⟩
    exact h
  | fail e =>
    refine ⟨[], (List.append_nil past).symm, ?_, ?_, ?_⟩ <;> rintro _ ⟨⟩
    exact h
  | op o next ih =>
    obtain ⟨ops, hops, hP, hEQ⟩ := ih (env past o) (h.2 _) (past ++ [o])
    refine ⟨o :: ops, ?_, List.forall_mem_cons.2 ⟨h.1, hP⟩, hEQ⟩
    rw [Program.run, hops, List.append_assoc]
    rfl

end Program

end LiteCode
