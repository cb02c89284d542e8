import GuestAgent.Library.Threads

/-!
# Two runs of programs that differ in a secret

A secret does not show in what a system does if two runs that differ in nothing but the secret look
the same.  `Lockstep S p q` is said of two programs: from states related by `S` they perform
operations that leave the states related, whatever else happens in between, and go on alike.  They
return values related by `V`, or raise the same exception.  The rules take two programs apart along
the way they were put together, and a program that performs only operations that are answered alike
is like itself: `Lockstep.refl`.

`Pool.Related` is said of two pools of threads: their shared states are related, and so are the
threads, one by one.  A step of a thread keeps that up (`Related.act`), and so does a thread that
starts (`Related.start`), and what `S` says of the states holds after any interleaving.

`Prog.embed` turns a program into one over an interface with more operations, and `Prog.attempt`
hands the exception of a program back as a value.
-/

set_option autoImplicit false

namespace Effect

namespace Prog

variable {A B : Type} {R : A → Type} {T : B → Type} {ε α : Type}

/-- The program over a larger interface. -/
def embed (f : A → B) (answer : (a : A) → T (f a) → R a) : Prog R ε α → Prog T ε α
  | ret x => ret x
  | raise e => raise e
  | call a k => call (f a) fun r ↦ (k (answer a r)).embed f answer

/-- What the program returns or raises, as a value. -/
def attempt (p : Prog R ε α) : Prog R ε (Except ε α) :=
  (p >>= fun x ↦ pure (.ok x)).tryExcept fun e ↦ pure (.error e)

end Prog

open Prog

variable {A B : Type} {R : A → Type} {T : B → Type} {ε σ M I E α β γ δ : Type}

/-! ## Programs -/

/-- From related states, the two programs leave related states and go on alike. -/
inductive Lockstep (handler : E → (a : A) → σ → R a × σ) (S : σ → σ → Prop) (like : A → A → Prop)
    {α β : Type} (V : α → β → Prop) : Prog R ε α → Prog R ε β → Prop
  | ret {x : α} {y : β} (h : V x y) : Lockstep handler S like V (.ret x) (.ret y)
  | raise (e : ε) : Lockstep handler S like V (.raise e) (.raise e)
  | call {a b : A} {k : R a → Prog R ε α} {l : R b → Prog R ε β} (hlike : like a b)
      (hshared : ∀ e s t, S s t → S (handler e a s).2 (handler e b t).2)
      (hrest : ∀ e s t, S s t →
        Lockstep handler S like V (k (handler e a s).1) (l (handler e b t).1)) :
      Lockstep handler S like V (.call a k) (.call b l)

namespace Lockstep

variable {handler : E → (a : A) → σ → R a × σ} {S : σ → σ → Prop} {like : A → A → Prop}
variable {V : α → β → Prop} {W : γ → δ → Prop}

/-- One operation each. -/
theorem perform {a b : A} {V : R a → R b → Prop} (hlike : like a b)
    (h : ∀ e s t, S s t →
      V (handler e a s).1 (handler e b t).1 ∧ S (handler e a s).2 (handler e b t).2) :
    Lockstep handler S like V (Prog.perform a : Prog R ε (R a)) (Prog.perform b) :=
  .call hlike (fun e s t hst ↦ (h e s t hst).2) fun e s t hst ↦ .ret (h e s t hst).1

theorem bind {p : Prog R ε α} {q : Prog R ε β} {f : α → Prog R ε γ} {g : β → Prog R ε δ}
    (hp : Lockstep handler S like V p q)
    (hf : ∀ x y, V x y → Lockstep handler S like W (f x) (g y)) :
    Lockstep handler S like W (p >>= f) (q >>= g) := by
  induction hp with
  | ret h => exact hf _ _ h
  | raise e => exact .raise e
  | call hlike hshared _ ih => exact .call hlike hshared ih

theorem tryExcept {p : Prog R ε α} {q : Prog R ε β} {f : ε → Prog R ε α} {g : ε → Prog R ε β}
    (hp : Lockstep handler S like V p q) (hf : ∀ e, Lockstep handler S like V (f e) (g e)) :
    Lockstep handler S like V (p.tryExcept f) (q.tryExcept g) := by
  induction hp with
  | ret h => exact .ret h
  | raise e => exact hf e
  | call hlike hshared _ ih => exact .call hlike hshared ih

theorem ofExcept (r : Except ε α) :
    Lockstep handler S like Eq (Prog.ofExcept r) (Prog.ofExcept r) := by
  cases r with
  | ok x => exact .ret rfl
  | error e => exact .raise e

theorem attempt {p q : Prog R ε α} (h : Lockstep handler S like Eq p q) :
    Lockstep handler S like Eq p.attempt q.attempt := by
  refine (h.bind (W := Eq) fun x y hxy ↦ ?_).tryExcept fun e ↦ .ret rfl
  rw [hxy]
  exact .ret rfl

/-- **A program is like itself** where its operations are answered alike. -/
theorem refl {P : A → Prop} (hlike : ∀ a, P a → like a a)
    (h : ∀ a, P a → ∀ e s t, S s t →
      (handler e a s).1 = (handler e a t).1 ∧ S (handler e a s).2 (handler e a t).2)
    {p : Prog R ε α} (hp : p.Performs P) : Lockstep handler S like Eq p p := by
  induction p with
  | ret x => exact .ret rfl
  | raise e => exact .raise e
  | call a k ih =>
    refine .call (hlike a hp.1) (fun e s t hst ↦ (h a hp.1 e s t hst).2) fun e s t hst ↦ ?_
    rw [(h a hp.1 e s t hst).1]
    exact ih _ (hp.2 _)

/-- Programs that are alike remain so in a larger interface. -/
theorem embed {f : A → B} {answer : (a : A) → T (f a) → R a}
    {handler : E → (b : B) → σ → T b × σ} {like : B → B → Prop} {p : Prog R ε α} {q : Prog R ε β}
    (h : Lockstep (fun e a s ↦ (answer a (handler e (f a) s).1, (handler e (f a) s).2)) S
      (fun a b ↦ like (f a) (f b)) V p q) :
    Lockstep handler S like V (p.embed f answer) (q.embed f answer) := by
  induction h with
  | ret h => exact .ret h
  | raise e => exact .raise e
  | call hlike hshared _ ih => exact .call hlike hshared ih

theorem isDone_iff {p : Prog R ε α} {q : Prog R ε β} (h : Lockstep handler S like V p q) :
    p.IsDone ↔ q.IsDone := by
  cases h <;> exact Iff.rfl

/-- The programs perform like operations next. -/
theorem next?_cases {p : Prog R ε α} {q : Prog R ε β} (h : Lockstep handler S like V p q) :
    (p.next? = none ∧ q.next? = none) ∨
      ∃ a b, p.next? = some a ∧ q.next? = some b ∧ like a b := by
  cases h with
  | ret | raise => exact .inl ⟨rfl, rfl⟩
  | call hlike => exact .inr ⟨_, _, rfl, rfl, hlike⟩

end Lockstep

/-! ## Threads -/

namespace Pool

/-- The shared states are related, and the threads are alike. -/
structure Related (handler : E → (a : A) → σ → R a × σ) (S : σ → σ → Prop) (like : A → A → Prop)
    (s t : Pool R ε σ M I) : Prop where
  shared : S s.shared t.shared
  thread : ∀ i, Lockstep handler S like Eq (s.thread i).rest (t.thread i).rest

variable {handler : E → (a : A) → σ → R a × σ} {S : σ → σ → Prop} {like : A → A → Prop}
variable {s t : Pool R ε σ M I}

variable [DecidableEq I] {μ : Monitor R M}

/-- A thread of each goes on with programs that are alike. -/
theorem Related.update (h : Related handler S like s t) (i : I) {x y : σ} (hxy : S x y)
    {p q : Prog R ε Unit} (hpq : Lockstep handler S like Eq p q) (m m' : M) :
    Related handler S like (⟨x, Function.update s.thread i ⟨p, m⟩⟩ : Pool R ε σ M I)
      ⟨y, Function.update t.thread i ⟨q, m'⟩⟩ := by
  refine ⟨hxy, fun j ↦ ?_⟩
  by_cases hj : j = i
  · subst hj
    simp only [Function.update_self]
    exact hpq
  · simp only [Function.update_of_ne hj]
    exact h.thread j

/-- **A step of one thread**, in the same environment. -/
theorem Related.act (h : Related handler S like s t) (i : I) (e : E) :
    Related handler S like (s.act handler μ i e) (t.act handler μ i e) := by
  have hi := h.thread i
  cases hs : (s.thread i).rest with
  | ret | raise =>
    have hdone : (s.thread i).rest.IsDone := by rw [hs]; trivial
    rwa [act_of_isDone hdone, act_of_isDone ((h.thread i).isDone_iff.mp hdone)]
  | call a k =>
    rw [hs] at hi
    cases ht : (t.thread i).rest with
    | ret | raise =>
      rw [ht] at hi
      cases hi
    | call b l =>
      rw [ht] at hi
      cases hi with
      | call hlike hshared hrest =>
        rw [act_call hs, act_call ht]
        exact h.update i (hshared e _ _ h.shared) (hrest e _ _ h.shared) _ _

theorem Related.start (h : Related handler S like s t) (i : I) (m : M) {p q : Prog R ε Unit}
    (hpq : Lockstep handler S like Eq p q) :
    Related handler S like (s.start i p m) (t.start i q m) := by
  rw [Pool.start, Pool.start]
  by_cases hdone : (s.thread i).rest.IsDone
  · rw [if_pos hdone, if_pos ((h.thread i).isDone_iff.mp hdone)]
    exact h.update i h.shared hpq m m
  · rwa [if_neg hdone, if_neg ((h.thread i).isDone_iff.not.mp hdone)]

end Pool
end Effect
