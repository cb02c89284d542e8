import GuestAgent.Library.Effect

/-!
# Exceptions and exits

What a program raises need not be an exception: it may leave by a way that nothing catches and
behind which no `finally` is run.  `Prog.tryCatch` and `Prog.tryFinally` are the two statements for
such programs, over a predicate `C` that says what is caught, and there is one rule for each way in
which the body may end.
-/

set_option autoImplicit false

namespace Effect.Prog

variable {A : Type} {R : A → Type} {ε σ α : Type} (C : ε → Prop) [DecidablePred C]

/-- `try: p` with `except: f e`, where only what satisfies `C` is caught. -/
def tryCatch (p : Prog R ε α) (f : ε → Prog R ε α) : Prog R ε α :=
  p.tryExcept fun e ↦ if C e then f e else raise e

/-- What `finally: f` does with an exception. -/
def reraise (f : Prog R ε Unit) (e : ε) : Prog R ε α := do
  f
  raise e

/-- `try: p` with `finally: f`. -/
def tryFinally (p : Prog R ε α) (f : Prog R ε Unit) : Prog R ε α := do
  let x ← tryCatch C p (reraise f)
  f
  pure x

variable {C} {h : (a : A) → σ → R a × σ} {p : Prog R ε α} {s t u : σ} {x : α} {e : ε}

theorem run_tryCatch_ok {f : ε → Prog R ε α} (hp : p.run h s = (.ok x, t)) :
    (tryCatch C p f).run h s = (.ok x, t) := by
  rw [tryCatch, run_tryExcept, hp]

theorem run_tryCatch_error {f : ε → Prog R ε α} (he : C e) (hp : p.run h s = (.error e, t)) :
    (tryCatch C p f).run h s = (f e).run h t := by
  rw [tryCatch, run_tryExcept, hp]
  exact congrArg (run h · t) (if_pos he)

/-- What is not caught goes through. -/
theorem run_tryCatch_exit {f : ε → Prog R ε α} (he : ¬ C e) (hp : p.run h s = (.error e, t)) :
    (tryCatch C p f).run h s = (.error e, t) := by
  rw [tryCatch, run_tryExcept, hp]
  exact congrArg (run h · t) (if_neg he)

variable {f : Prog R ε Unit}

theorem run_tryFinally_ok (hp : p.run h s = (.ok x, t)) (hf : f.run h t = (.ok (), u)) :
    (tryFinally C p f).run h s = (.ok x, u) := by
  rw [tryFinally, run_bind_ok (run_tryCatch_ok hp), run_bind_ok hf]
  rfl

theorem run_tryFinally_error (he : C e) (hp : p.run h s = (.error e, t))
    (hf : f.run h t = (.ok (), u)) : (tryFinally C p f).run h s = (.error e, u) := by
  have hreraise : (reraise f e : Prog R ε α).run h t = (.error e, u) := run_bind_ok hf
  exact run_bind_error ((run_tryCatch_error he hp).trans hreraise)

/-- Nor is it followed by `finally`. -/
theorem run_tryFinally_exit (he : ¬ C e) (hp : p.run h s = (.error e, t)) :
    (tryFinally C p f).run h s = (.error e, t) :=
  run_bind_error (run_tryCatch_exit he hp)

end Effect.Prog
