import GuestAgent.Library.Monitor
import Mathlib.Logic.Function.Iterate

/-!
# Threads

Several programs run at once and share a state, and their operations are interleaved in any order.
A `Pool` has the shared state and the threads: what is left of each one's program, and its account
of what it has done, kept by a monitor.  `Pool.act` performs the next operation of one thread.

`Pool.InOrder` says that every thread has only operations before it that the monitor allows, and
that its account is as it should be once it has ended.  `inOrder_act` and `inOrder_start` keep that
up, and what an operation may do is then read off the monitor, wherever it is interleaved.

A thread that runs alone does what its program does on its own: `exists_iterate_act`.
-/

set_option autoImplicit false

namespace Effect

variable {A : Type} {R : A → Type} {ε σ M I E : Type}

namespace Prog

/-- The program has returned or raised. -/
def IsDone {α : Type} : Prog R ε α → Prop
  | ret _ | raise _ => True
  | call _ _ => False

instance {α : Type} : DecidablePred (IsDone (R := R) (ε := ε) (α := α))
  | ret _ | raise _ => isTrue trivial
  | call _ _ => isFalse id

/-- The next operation of a program. -/
def next? {α : Type} : Prog R ε α → Option A
  | ret _ | raise _ => none
  | call a _ => some a

end Prog

open Prog

/-- What is left of a thread's program, and its account of what it has done. -/
structure Thread {A : Type} (R : A → Type) (ε M : Type) where
  rest : Prog R ε Unit
  account : M

/-- A shared state and the threads. -/
structure Pool {A : Type} (R : A → Type) (ε σ M I : Type) where
  shared : σ
  thread : I → Thread R ε M

namespace Pool

/-- Every thread is at a program whose operations are in order, and that ends with an account
satisfying `Q`. -/
def InOrder (μ : Monitor R M) (Q : M → Prop) (s : Pool R ε σ M I) : Prop :=
  ∀ i, μ.wp (s.thread i).rest (fun _ ↦ Q) (s.thread i).account

/-- The account of a thread that is done. -/
theorem InOrder.of_isDone {μ : Monitor R M} {Q : M → Prop} {s : Pool R ε σ M I} (h : s.InOrder μ Q)
    {i : I} (hdone : (s.thread i).rest.IsDone) :
    Q (s.thread i).account := by
  have hi := h i
  cases hrest : (s.thread i).rest with
  | ret x =>
    rw [hrest] at hi
    exact hi
  | raise x =>
    rw [hrest] at hi
    exact hi
  | call a k =>
    rw [hrest] at hdone
    exact hdone.elim

variable [DecidableEq I] (handler : E → (a : A) → σ → R a × σ) (μ : Monitor R M)

/-- Thread `i` performs its next operation, in the environment `e`. -/
def act (s : Pool R ε σ M I) (i : I) (e : E) : Pool R ε σ M I :=
  match (s.thread i).rest with
  | .call a k =>
    let (r, shared) := handler e a s.shared
    ⟨shared, Function.update s.thread i ⟨k r, μ.next (s.thread i).account a r⟩⟩
  | .ret _ | .raise _ => s

/-- Thread `i` starts a program, unless it is still at one. -/
def start (s : Pool R ε σ M I) (i : I) (p : Prog R ε Unit) (m : M) : Pool R ε σ M I :=
  if (s.thread i).rest.IsDone then
    { s with thread := Function.update s.thread i ⟨p, m⟩ }
  else s

section Steps

variable {handler μ} {s : Pool R ε σ M I} {i : I} {e : E} {a : A} {k : R a → Prog R ε Unit}
variable {Q : M → Prop}

theorem act_call (h : (s.thread i).rest = .call a k) :
    s.act handler μ i e = ⟨(handler e a s.shared).2, Function.update s.thread i
      ⟨k (handler e a s.shared).1,
        μ.next (s.thread i).account a (handler e a s.shared).1⟩⟩ := by
  rw [act, h]

theorem act_of_isDone (h : (s.thread i).rest.IsDone) : s.act handler μ i e = s := by
  rw [act]
  cases hrest : (s.thread i).rest with
  | ret x => rfl
  | raise x => rfl
  | call a k =>
    rw [hrest] at h
    exact h.elim

/-- What a step does: nothing, or one operation that is in order. -/
theorem InOrder.act_cases (handler : E → (a : A) → σ → R a × σ) (h : s.InOrder μ Q) (i : I)
    (e : E) :
    s.act handler μ i e = s ∨ ∃ a k, (s.thread i).rest = .call a k ∧
      μ.allows (s.thread i).account a ∧
      s.act handler μ i e = ⟨(handler e a s.shared).2, Function.update s.thread i
        ⟨k (handler e a s.shared).1,
          μ.next (s.thread i).account a (handler e a s.shared).1⟩⟩ := by
  cases hrest : (s.thread i).rest with
  | ret x => exact .inl (act_of_isDone (by rw [hrest]; trivial))
  | raise x => exact .inl (act_of_isDone (by rw [hrest]; trivial))
  | call a k =>
    have hi := h i
    rw [hrest] at hi
    exact .inr ⟨a, k, rfl, hi.1, act_call hrest⟩

/-- A thread goes on with a program that is in order. -/
theorem inOrder_update (h : s.InOrder μ Q) (shared : σ) (i : I) {p : Prog R ε Unit} {m : M}
    (hp : μ.wp p (fun _ ↦ Q) m) :
    InOrder μ Q (⟨shared, Function.update s.thread i ⟨p, m⟩⟩ : Pool R ε σ M I) :=
  (Function.forall_update_iff s.thread fun _ t ↦ μ.wp t.rest (fun _ ↦ Q) t.account).mpr
    ⟨hp, fun j _ ↦ h j⟩

/-- **An operation that is answered as the monitor expects** leaves the threads in order. -/
theorem inOrder_act (h : s.InOrder μ Q)
    (hmay : ∀ a, (s.thread i).rest.next? = some a →
      μ.may (s.thread i).account a (handler e a s.shared).1) :
    (s.act handler μ i e).InOrder μ Q := by
  cases hrest : (s.thread i).rest with
  | ret x => rwa [act_of_isDone (by rw [hrest]; trivial)]
  | raise x => rwa [act_of_isDone (by rw [hrest]; trivial)]
  | call a k =>
    have hi := h i
    rw [hrest] at hi
    rw [act_call hrest]
    exact inOrder_update h _ i (hi.2 _ (hmay a (by rw [hrest]; rfl)))

theorem inOrder_start (h : s.InOrder μ Q) {p : Prog R ε Unit} {m : M}
    (hp : μ.wp p (fun _ ↦ Q) m) : (s.start i p m).InOrder μ Q := by
  rw [start]
  split
  · exact inOrder_update h _ i hp
  · exact h

end Steps

/-- **A thread on its own** does what its program does, and leaves the other threads alone. -/
theorem exists_iterate_act (p : Prog R ε Unit) (s : Pool R ε σ M I) {i : I} (e : E)
    (h : (s.thread i).rest = p) :
    ∃ n, ((act handler μ · i e)^[n] s).shared = (p.run (handler e) s.shared).2 ∧
      (((act handler μ · i e)^[n] s).thread i).rest.IsDone ∧
      ∀ j, j ≠ i → ((act handler μ · i e)^[n] s).thread j = s.thread j := by
  induction p generalizing s with
  | ret x => exact ⟨0, rfl, by rw [Function.iterate_zero_apply, h]; trivial, fun _ _ ↦ rfl⟩
  | raise x => exact ⟨0, rfl, by rw [Function.iterate_zero_apply, h]; trivial, fun _ _ ↦ rfl⟩
  | call a k ih =>
    have hact : s.act handler μ i e = _ := act_call h
    obtain ⟨n, hshared, hdone, hother⟩ := ih (handler e a s.shared).1 (s.act handler μ i e) (by
      rw [hact]
      simp only [Function.update_self])
    rw [hact] at hshared hother
    refine ⟨n + 1, ?_, ?_, fun j hj ↦ ?_⟩
    · rw [Function.iterate_succ_apply, hact, hshared]
      rfl
    · rwa [Function.iterate_succ_apply]
    · rw [Function.iterate_succ_apply, hact, hother j hj]
      exact Function.update_of_ne hj ..

end Pool
end Effect
