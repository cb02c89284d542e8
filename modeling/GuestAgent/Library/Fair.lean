import Mathlib.Data.Nat.Notation

/-!
# Fair runs

That something happens in the end cannot be said of a finite run.  Here a run of a step function is
an infinite sequence of inputs, `Fair.state` is the state after each of them, and fairness is about
the sequence: some inputs come again and again.

To show that a goal is reached it is enough to name, in each state, somebody whose turn brings it
closer.  `Fair.exists_goal` is that rule.  Each step lowers a rank, or else it leaves the rank alone
and does not change who is to help, and is no help of his; whoever is to help gets his turn in the
end, so the rank cannot stay as it is for ever.
-/

set_option autoImplicit false

namespace Fair

variable {σ ι κ : Type*} (step : σ → ι → σ) (s : σ) (run : ℕ → ι)

/-- The state after some inputs. -/
def state : ℕ → σ
  | 0 => s
  | n + 1 => step (state n) (run n)

variable {step s run}

/-- What each step keeps. -/
theorem keeps {P : σ → Prop} {n : ℕ} (hn : P (state step s run n))
    (hstep : ∀ m ≥ n, P (state step s run m) → P (state step s run (m + 1))) :
    ∀ m ≥ n, P (state step s run m) := by
  intro m hm
  induction hm with
  | refl => exact hn
  | step hm ih => exact hstep _ hm ih

/-- What each step keeps, from the beginning on. -/
theorem invariant {P : σ → Prop} (hs : P s) (hstep : ∀ s i, P s → P (step s i)) (n : ℕ) :
    P (state step s run n) :=
  keeps (n := 0) hs (fun _ _ h ↦ hstep _ _ h) n (Nat.zero_le n)

/-- A step lowers the rank, or it is one of those that wait for whoever is to help. -/
def Advances (step : σ → ι → σ) (rank : σ → ℕ) (helper : σ → κ) (helps : κ → σ → ι → Prop) (s : σ)
    (i : ι) : Prop :=
  rank (step s i) < rank s ∨
    rank (step s i) = rank s ∧ helper (step s i) = helper s ∧ ¬ helps (helper s) s i

theorem advances_of_le {rank : σ → ℕ} {helper : σ → κ} {helps : κ → σ → ι → Prop} {i : ι}
    (hle : rank (step s i) ≤ rank s) (hhelps : helps (helper s) s i → rank (step s i) < rank s)
    (hsame : rank (step s i) = rank s → helper (step s i) = helper s) :
    Advances step rank helper helps s i := by
  rcases Nat.lt_or_eq_of_le hle with hlt | heq
  · exact .inl hlt
  · refine .inr ⟨heq, hsame heq, fun h ↦ ?_⟩
    exact absurd (hhelps h) (Nat.not_lt_of_le (Nat.le_of_eq heq.symm))

/-- **A goal is reached** if each step advances toward it, and everybody helps again and again. -/
theorem exists_goal (goal : σ → Prop) {rank : σ → ℕ} {helper : σ → κ} {helps : κ → σ → ι → Prop}
    {n : ℕ} (hfair : ∀ k m, ∃ m' ≥ m, helps k (state step s run m') (run m'))
    (hadvances : ∀ m ≥ n, ¬ goal (state step s run m) →
      Advances step rank helper helps (state step s run m) (run m)) :
    ∃ m ≥ n, goal (state step s run m) := by
  refine Classical.byContradiction fun hnone ↦ ?_
  have hstep (m : ℕ) (hm : n ≤ m) :
      Advances step rank helper helps (state step s run m) (run m) :=
    hadvances m hm fun hgoal ↦ hnone ⟨m, hm, hgoal⟩
  -- no rank can be the last one
  have hrank (v : ℕ) : ∀ m ≥ n, rank (state step s run m) ≠ v := by
    induction v using Nat.strongRecOn with
    | ind v ih =>
      intro m hm hv
      have hsame : ∀ j ≥ m, rank (state step s run j) = v ∧
          helper (state step s run j) = helper (state step s run m) := by
        intro j hj
        induction hj with
        | refl => exact ⟨hv, rfl⟩
        | step hj hrec =>
          have hle := Nat.le_trans hm hj
          rcases hstep _ hle with hlt | ⟨hrank, hhelper, -⟩
          · rw [hrec.1] at hlt
            exact absurd rfl (ih _ hlt _ (Nat.le_succ_of_le hle))
          · exact ⟨hrank.trans hrec.1, hhelper.trans hrec.2⟩
      obtain ⟨j, hj, hhelps⟩ := hfair (helper (state step s run m)) m
      have hle := Nat.le_trans hm hj
      rcases hstep j hle with hlt | ⟨-, -, hnot⟩
      · rw [(hsame j hj).1] at hlt
        exact absurd rfl (ih _ hlt _ (Nat.le_succ_of_le hle))
      · rw [(hsame j hj).2] at hnot
        exact hnot hhelps
  exact hrank _ n (Nat.le_refl n) rfl

end Fair
