import Mathlib.Logic.Relation

/-!
# Programs over an interface of operations

A program that talks to the world is a tree: it has returned, it has raised, or it performs one
operation of its interface and goes on with the answer.  `Effect.Prog` is that tree, over any type
`A` of operations and any assignment `R` of an answer type to each of them.  Nothing is said here
about what an operation does; that is the business of a *handler*, a function that answers an
operation and changes a state of its choosing, and `Effect.Prog.run` runs a program against one.

The same tree can so be run against several handlers, which is what makes it worth having.  Two
facts about a program are proved by looking at how it was put together rather than at what it
does, and `Effect.Built` is the vocabulary for that: `Built P p` says that `p` was made from pieces
satisfying `P` by returning, raising, sequencing and catching, and nothing else.

* `Built.respects`: a relation between states that is reflexive and transitive, and that every
  piece respects, relates the first state of a run to the last one.
* `Built.simulate`: if two handlers answer every piece alike from related states, and leave the
  states related, they give the whole program one outcome.

An assembled program therefore needs one `Built` lemma, and every property closed under sequencing
is read off it.
-/

set_option autoImplicit false

namespace Effect

variable {A : Type} {R : A → Type} {ε σ τ α β γ : Type}

/-- A program over the operations `A`, the operation `a` being answered by an `R a`.  It returns
an `α` or raises an `ε`. -/
inductive Prog {A : Type} (R : A → Type) (ε α : Type) : Type where
  /-- The program has returned. -/
  | ret (x : α) : Prog R ε α
  /-- The program has raised. -/
  | raise (e : ε) : Prog R ε α
  /-- The program performs `a` and goes on with the answer. -/
  | call (a : A) (k : R a → Prog R ε α) : Prog R ε α

namespace Prog

/-- Sequencing: what follows a `raise` is dropped. -/
def bind : Prog R ε α → (α → Prog R ε β) → Prog R ε β
  | ret x, f => f x
  | raise e, _ => raise e
  | call a k, f => call a fun r ↦ (k r).bind f

instance : Monad (Prog R ε) where
  pure := ret
  bind := bind

theorem bind_pure_eq (p : Prog R ε α) : p.bind ret = p := by
  induction p with
  | ret x => rfl
  | raise e => rfl
  | call a k ih => exact congrArg (call a) (funext ih)

theorem bind_bind_eq (p : Prog R ε α) (f : α → Prog R ε β) (g : β → Prog R ε γ) :
    (p.bind f).bind g = p.bind fun x ↦ (f x).bind g := by
  induction p with
  | ret x => rfl
  | raise e => rfl
  | call a k ih => exact congrArg (call a) (funext ih)

instance : LawfulMonad (Prog R ε) :=
  .mk' _ bind_pure_eq (fun _ _ ↦ rfl) bind_bind_eq

/-- `try p except e: f e`. -/
def tryExcept : Prog R ε α → (ε → Prog R ε α) → Prog R ε α
  | ret x, _ => ret x
  | raise e, f => f e
  | call a k, f => call a fun r ↦ (k r).tryExcept f

/-- Perform one operation and return its answer. -/
def perform (a : A) : Prog R ε (R a) := call a ret

/-- Return or raise what a computation without effects gave. -/
def ofExcept : Except ε α → Prog R ε α
  | .ok x => ret x
  | .error e => raise e

/-! ## Running a program -/

/-- Run a program: the handler `h` answers each operation and changes the state. -/
def run (h : (a : A) → σ → R a × σ) : Prog R ε α → σ → Except ε α × σ
  | ret x, s => (.ok x, s)
  | raise e, s => (.error e, s)
  | call a k, s => (k (h a s).1).run h (h a s).2

variable {h : (a : A) → σ → R a × σ} {g : (a : A) → τ → R a × τ}

@[simp] theorem run_ret (x : α) (s : σ) : (ret x : Prog R ε α).run h s = (.ok x, s) := rfl

@[simp] theorem run_pure (x : α) (s : σ) : (pure x : Prog R ε α).run h s = (.ok x, s) := rfl

@[simp] theorem run_raise (e : ε) (s : σ) : (raise e : Prog R ε α).run h s = (.error e, s) := rfl

@[simp] theorem run_perform (a : A) (s : σ) :
    (perform a : Prog R ε (R a)).run h s = (.ok (h a s).1, (h a s).2) := rfl

@[simp] theorem run_ofExcept (r : Except ε α) (s : σ) :
    (ofExcept r : Prog R ε α).run h s = (r, s) := by
  cases r <;> rfl

/-- Sequencing runs the second program from where the first one returned. -/
theorem run_bind (p : Prog R ε α) (f : α → Prog R ε β) (s : σ) :
    (p >>= f).run h s = match p.run h s with
      | (.ok x, t) => (f x).run h t
      | (.error e, t) => (.error e, t) := by
  induction p generalizing s with
  | ret x => rfl
  | raise e => rfl
  | call a k ih => exact ih (h a s).1 (h a s).2

theorem run_bind_ok {p : Prog R ε α} {f : α → Prog R ε β} {s t : σ} {x : α}
    (hp : p.run h s = (.ok x, t)) : (p >>= f).run h s = (f x).run h t := by
  rw [run_bind, hp]

theorem run_bind_error {p : Prog R ε α} {f : α → Prog R ε β} {s t : σ} {e : ε}
    (hp : p.run h s = (.error e, t)) : (p >>= f).run h s = (.error e, t) := by
  rw [run_bind, hp]

/-- Catching runs the handler of the exception from where it was raised. -/
theorem run_tryExcept (p : Prog R ε α) (f : ε → Prog R ε α) (s : σ) :
    (p.tryExcept f).run h s = match p.run h s with
      | (.ok x, t) => (.ok x, t)
      | (.error e, t) => (f e).run h t := by
  induction p generalizing s with
  | ret x => rfl
  | raise e => rfl
  | call a k ih => exact ih (h a s).1 (h a s).2

/-- Nothing but its argument is returned by a program that ends with `pure`. -/
theorem eq_of_run_bind_pure {p : Prog R ε α} {x y : β} {s t : σ}
    (hp : (p >>= fun _ ↦ pure x).run h s = (.ok y, t)) : x = y := by
  rw [run_bind] at hp
  rcases hps : p.run h s with ⟨e | z, s'⟩ <;> rw [hps] at hp <;> cases hp
  rfl

/-! ## What a program performs -/

/-- The operations of a run, with their answers. -/
def history (h : (a : A) → σ → R a × σ) : Prog R ε α → σ → List (Σ a, R a)
  | ret _, _ => []
  | raise _, _ => []
  | call a k, s => ⟨a, (h a s).1⟩ :: (k (h a s).1).history h (h a s).2

/-- Every operation the program performs satisfies `P`, whatever it is answered. -/
def Performs (P : A → Prop) : Prog R ε α → Prop
  | ret _ => True
  | raise _ => True
  | call a k => P a ∧ ∀ r, (k r).Performs P

variable {P : A → Prop}

theorem history_bind (p : Prog R ε α) (f : α → Prog R ε β) (s : σ) :
    (p >>= f).history h s = p.history h s ++ match p.run h s with
      | (.ok x, t) => (f x).history h t
      | (.error _, _) => [] := by
  induction p generalizing s with
  | ret x => rfl
  | raise e => rfl
  | call a k ih => exact congrArg (List.cons _) (ih (h a s).1 (h a s).2)

theorem history_bind_pure (p : Prog R ε α) (f : α → β) (s : σ) :
    (p >>= fun x ↦ pure (f x)).history h s = p.history h s := by
  rw [history_bind]
  split <;> exact List.append_nil _

theorem history_bind_ok {p : Prog R ε α} {f : α → Prog R ε β} {s t : σ} {x : α}
    (hp : p.run h s = (.ok x, t)) :
    (p >>= f).history h s = p.history h s ++ (f x).history h t := by
  rw [history_bind, hp]

theorem history_tryExcept (p : Prog R ε α) (f : ε → Prog R ε α) (s : σ) :
    (p.tryExcept f).history h s = p.history h s ++ match p.run h s with
      | (.ok _, _) => []
      | (.error e, t) => (f e).history h t := by
  induction p generalizing s with
  | ret x => rfl
  | raise e => rfl
  | call a k ih => exact congrArg (List.cons _) (ih (h a s).1 (h a s).2)

@[simp] theorem history_perform (a : A) (s : σ) :
    (perform a : Prog R ε (R a)).history h s = [⟨a, (h a s).1⟩] := rfl

@[simp] theorem history_pure (x : α) (s : σ) : (pure x : Prog R ε α).history h s = [] := rfl

@[simp] theorem history_ofExcept (r : Except ε α) (s : σ) :
    (ofExcept r : Prog R ε α).history h s = [] := by
  cases r <;> rfl

theorem performs_of_forall (h : ∀ a, P a) (p : Prog R ε α) : p.Performs P := by
  induction p with
  | ret x => trivial
  | raise e => trivial
  | call a k ih => exact ⟨h a, ih⟩

theorem performs_perform {a : A} (ha : P a) : (perform a : Prog R ε (R a)).Performs P :=
  ⟨ha, fun _ ↦ trivial⟩

theorem performs_ofExcept (r : Except ε α) : (ofExcept r : Prog R ε α).Performs P := by
  cases r <;> trivial

theorem Performs.bind {p : Prog R ε α} {f : α → Prog R ε β} (hp : p.Performs P)
    (hf : ∀ x, (f x).Performs P) : (p >>= f).Performs P := by
  induction p with
  | ret x => exact hf x
  | raise e => trivial
  | call a k ih => exact ⟨hp.1, fun r ↦ ih r (hp.2 r)⟩

theorem Performs.tryExcept {p : Prog R ε α} {f : ε → Prog R ε α} (hp : p.Performs P)
    (hf : ∀ e, (f e).Performs P) : (p.tryExcept f).Performs P := by
  induction p with
  | ret x => trivial
  | raise e => exact hf e
  | call a k ih => exact ⟨hp.1, fun r ↦ ih r (hp.2 r)⟩

theorem Performs.of_mem_history {p : Prog R ε α} (hp : p.Performs P) {s : σ} {e : Σ a, R a}
    (he : e ∈ p.history h s) : P e.1 := by
  induction p generalizing s with
  | ret x => cases he
  | raise e => cases he
  | call a k ih =>
    rcases List.mem_cons.mp he with rfl | he
    · exact hp.1
    · exact ih _ (hp.2 _) he

/-! ## Programs that return -/

/-- Where the program returns from `s`, its value, what it has performed, and the state it leaves
satisfy `Q`. -/
def Yields (h : (a : A) → σ → R a × σ) (p : Prog R ε α) (s : σ)
    (Q : α → List (Σ a, R a) → σ → Prop) : Prop :=
  ∀ x t, p.run h s = (.ok x, t) → Q x (p.history h s) t

section Yields

variable {s : σ}

theorem yields_pure {x : α} {Q : α → List (Σ a, R a) → σ → Prop} (hQ : Q x [] s) :
    (pure x : Prog R ε α).Yields h s Q := by
  rintro _ _ ⟨⟩
  exact hQ

theorem yields_raise (e : ε) (Q : α → List (Σ a, R a) → σ → Prop) :
    (raise e : Prog R ε α).Yields h s Q := nofun

theorem yields_perform {a : A} {Q : R a → List (Σ a, R a) → σ → Prop}
    (hQ : Q (h a s).1 [⟨a, (h a s).1⟩] (h a s).2) :
    (perform a : Prog R ε (R a)).Yields h s Q := by
  rintro _ _ ⟨⟩
  exact hQ

/-- **Sequencing**: what the second program performs comes after what the first one has. -/
theorem yields_bind {p : Prog R ε α} {f : α → Prog R ε β} {Q : β → List (Σ a, R a) → σ → Prop}
    (hp : p.Yields h s fun x xs t ↦ (f x).Yields h t fun y ys r ↦ Q y (xs ++ ys) r) :
    (p >>= f).Yields h s Q := by
  intro y r hrun
  rcases hps : p.run h s with ⟨e | x, t⟩
  · rw [run_bind_error hps] at hrun
    cases hrun
  · rw [run_bind_ok hps] at hrun
    rw [history_bind_ok hps]
    exact hp x t hps y r hrun

end Yields

end Prog

/-! ## How a program was put together -/

open Prog

/-- `p` is made of programs that satisfy `P`, by returning, raising, sequencing and catching. -/
inductive Built (P : (α : Type) → Prog R ε α → Prop) : (α : Type) → Prog R ε α → Prop
  /-- A piece. -/
  | atom {α : Type} {p : Prog R ε α} (hp : P α p) : Built P α p
  | ret {α : Type} (x : α) : Built P α (ret x)
  | raise {α : Type} (e : ε) : Built P α (raise e)
  | bind {α β : Type} {p : Prog R ε α} {f : α → Prog R ε β} (hp : Built P α p)
      (hf : ∀ x, Built P β (f x)) : Built P β (p >>= f)
  | tryExcept {α : Type} {p : Prog R ε α} {f : ε → Prog R ε α} (hp : Built P α p)
      (hf : ∀ e, Built P α (f e)) : Built P α (p.tryExcept f)

namespace Built

variable {P : (α : Type) → Prog R ε α → Prop} {p : Prog R ε α}
variable {h : (a : A) → σ → R a × σ} {g : (a : A) → τ → R a × τ}

theorem pure (x : α) : Built P α (Pure.pure x) := ret x

theorem ofExcept (r : Except ε α) : Built P α (Prog.ofExcept r) := by
  cases r with
  | ok x => exact ret x
  | error e => exact raise e

/-- **Two handlers that agree on the pieces agree on the program.**  `Q` relates the states of the
two runs; it is only asked to hold from piece to piece. -/
theorem simulate {Q : σ → τ → Prop}
    (hP : ∀ α p, P α p → ∀ s t, Q s t →
      (p.run h s).1 = (p.run g t).1 ∧ Q (p.run h s).2 (p.run g t).2)
    (hp : Built P α p) :
    ∀ s t, Q s t → (p.run h s).1 = (p.run g t).1 ∧ Q (p.run h s).2 (p.run g t).2 := by
  induction hp with
  | atom hp => exact hP _ _ hp
  | ret x => exact fun s t hst ↦ ⟨rfl, hst⟩
  | raise e => exact fun s t hst ↦ ⟨rfl, hst⟩
  | @bind α β p f _ _ ihp ihf =>
    intro s t hst
    obtain ⟨hout, hst'⟩ := ihp s t hst
    rw [run_bind, run_bind]
    rcases hps : p.run h s with ⟨_ | x, s'⟩ <;> rcases hpt : p.run g t with ⟨_ | y, t'⟩ <;>
      rw [hps, hpt] at hout hst'
    · cases hout; exact ⟨rfl, hst'⟩
    · cases hout
    · cases hout
    · cases hout; exact ihf x s' t' hst'
  | @tryExcept α p f _ _ ihp ihf =>
    intro s t hst
    obtain ⟨hout, hst'⟩ := ihp s t hst
    rw [run_tryExcept, run_tryExcept]
    rcases hps : p.run h s with ⟨e | x, s'⟩ <;> rcases hpt : p.run g t with ⟨_ | y, t'⟩ <;>
      rw [hps, hpt] at hout hst'
    · cases hout; exact ihf e s' t' hst'
    · cases hout
    · cases hout
    · cases hout; exact ⟨rfl, hst'⟩

/-- **A preorder every piece respects is respected by the program.** -/
theorem respects {Q : σ → σ → Prop} [IsPreorder σ Q]
    (hP : ∀ α p, P α p → ∀ s, Q s (p.run h s).2) (hp : Built P α p) :
    ∀ s, Q s (p.run h s).2 := by
  induction hp with
  | atom hp => exact hP _ _ hp
  | ret x => exact fun s ↦ refl_of Q s
  | raise e => exact fun s ↦ refl_of Q s
  | @bind α β p f _ _ ihp ihf =>
    intro s
    have hs := ihp s
    rw [run_bind]
    rcases hps : p.run h s with ⟨_ | x, s'⟩ <;> rw [hps] at hs
    · exact hs
    · exact trans_of Q hs (ihf x s')
  | @tryExcept α p f _ _ ihp ihf =>
    intro s
    have hs := ihp s
    rw [run_tryExcept]
    rcases hps : p.run h s with ⟨e | x, s'⟩ <;> rw [hps] at hs
    · exact trans_of Q hs (ihf e s')
    · exact hs

end Built
end Effect
