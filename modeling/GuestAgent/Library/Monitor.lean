import GuestAgent.Library.Effect

/-!
# Programs under a monitor

When several programs run at once, what one of them may rely on is its own account of what it has
done so far and of what it was answered.  `Effect.Monitor` is such an account: a state, how an
operation and its answer change it, which operations are in order in it, and which answers can come.

`Monitor.wp μ p Q m` says of the program `p`, started with the account `m`, that every operation it
performs is in order, whatever it is answered, and that `Q` holds of what it returns or raises and
of its account then.  The rules below take it apart along the constructors of a program.

`Monitor.Follows` is the same without a postcondition.  It is what an invariant says of the rest of
a program that is halfway through: `Follows.step` performs one operation, and what is left follows
the monitor again.
-/

set_option autoImplicit false

namespace Effect

variable {A : Type} {R : A → Type} {ε α β M : Type}

/-- A program's account of itself. -/
structure Monitor {A : Type} (R : A → Type) (M : Type) where
  /-- The operation is in order. -/
  allows : M → A → Prop
  /-- The operation can be answered so. -/
  may : M → (a : A) → R a → Prop
  /-- The account after an operation and its answer. -/
  next : M → (a : A) → R a → M

namespace Monitor

variable (μ : Monitor R M)

/-- Every operation of the program is in order, and `Q` holds when it ends. -/
def wp : Prog R ε α → (Except ε α → M → Prop) → M → Prop
  | .ret x, Q, m => Q (.ok x) m
  | .raise e, Q, m => Q (.error e) m
  | .call a k, Q, m => μ.allows m a ∧ ∀ r, μ.may m a r → wp (k r) Q (μ.next m a r)

variable {μ} {Q Q' : Except ε α → M → Prop} {m : M}

@[simp] theorem wp_pure (x : α) : μ.wp (pure x : Prog R ε α) Q m ↔ Q (.ok x) m := Iff.rfl

@[simp] theorem wp_raise (e : ε) : μ.wp (.raise e : Prog R ε α) Q m ↔ Q (.error e) m := Iff.rfl

@[simp] theorem wp_perform (a : A) {Q : Except ε (R a) → M → Prop} :
    μ.wp (Prog.perform a) Q m ↔
      μ.allows m a ∧ ∀ r, μ.may m a r → Q (.ok r) (μ.next m a r) := Iff.rfl

@[simp] theorem wp_ofExcept (r : Except ε α) :
    μ.wp (Prog.ofExcept r : Prog R ε α) Q m ↔ Q r m := by
  cases r <;> exact Iff.rfl

theorem wp_mono {p : Prog R ε α} (hQ : ∀ out m, Q out m → Q' out m) (hp : μ.wp p Q m) :
    μ.wp p Q' m := by
  induction p generalizing m with
  | ret x => exact hQ _ _ hp
  | raise e => exact hQ _ _ hp
  | call a k ih => exact ⟨hp.1, fun r hr ↦ ih r (hp.2 r hr)⟩

/-- Sequencing. -/
theorem wp_bind {p : Prog R ε α} {f : α → Prog R ε β} {Q : Except ε β → M → Prop} :
    μ.wp (p >>= f) Q m ↔ μ.wp p (fun
      | .ok x, m => μ.wp (f x) Q m
      | .error e, m => Q (.error e) m) m := by
  induction p generalizing m with
  | ret x => exact Iff.rfl
  | raise e => exact Iff.rfl
  | call a k ih => exact and_congr_right fun _ ↦ forall₂_congr fun r _ ↦ ih r

/-- Catching. -/
theorem wp_tryExcept {p : Prog R ε α} {f : ε → Prog R ε α} :
    μ.wp (p.tryExcept f) Q m ↔ μ.wp p (fun
      | .ok x, m => Q (.ok x) m
      | .error e, m => μ.wp (f e) Q m) m := by
  induction p generalizing m with
  | ret x => exact Iff.rfl
  | raise e => exact Iff.rfl
  | call a k ih => exact and_congr_right fun _ ↦ forall₂_congr fun r _ ↦ ih r

variable (μ)

/-- Every operation of the program is in order. -/
def Follows (p : Prog R ε α) (m : M) : Prop := μ.wp p (fun _ _ ↦ True) m

variable {μ}

/-- One operation of a program that follows the monitor. -/
theorem Follows.step {a : A} {k : R a → Prog R ε α} (h : μ.Follows (.call a k) m) :
    μ.allows m a ∧ ∀ r, μ.may m a r → μ.Follows (k r) (μ.next m a r) := h

end Monitor
end Effect
