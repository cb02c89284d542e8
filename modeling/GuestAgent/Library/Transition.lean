import Mathlib.Logic.Relation

/-!
# Runs of a step function

A deterministic system with inputs is a function `step : σ → ι → σ`, and a run of it from a state
is a list of inputs.  Two properties of a run come up again and again:

* `Transition.Always`: a predicate holds in every state the run passes through, its first and its
  last one included;
* `Transition.Each`: a relation holds between every input of the run and the state it arrives in.

`always_iff_each` is the rule that connects them.  If a step from a state satisfying `P` leads to
one satisfying `P` exactly when its input satisfies `C`, then `P` holds all along a run exactly
when every input of the run satisfies `C`: the exact condition for an invariant, found one step at
a time.  `always_iff_each_of_inv` is the rule for a `P` that needs another invariant besides.

Where a step is a relation, the states that can be reached are those of `Relation.ReflTransGen`, and
`invariant_of_step` is the rule for an invariant.

A step may also give a result.  `outputs` are the results along a run, and `outputs_eq_iff_each` is
the rule for two systems that are to give the same ones: if they do so in one step exactly when the
input satisfies `C`, and stay related then, they do so along a run exactly when every input does.
-/

set_option autoImplicit false

namespace Transition

variable {σ ι : Type*} (step : σ → ι → σ)

/-- `P` holds in every state the run passes through. -/
def Always (P : σ → Prop) : σ → List ι → Prop
  | s, [] => P s
  | s, i :: run => P s ∧ Always P (step s i) run

/-- `C` holds of every state in which the run takes an input, together with that input. -/
def Each (C : σ → ι → Prop) : σ → List ι → Prop
  | _, [] => True
  | s, i :: run => C s i ∧ Each C (step s i) run

variable {step} {P : σ → Prop} {C D : σ → ι → Prop}

theorem Always.head {s : σ} {run : List ι} (h : Always step P s run) : P s := by
  cases run with
  | nil => exact h
  | cons i run => exact h.1

/-- `P` holds all along a run exactly when it holds in the state after every prefix of it. -/
theorem always_iff_prefixes {s : σ} {run : List ι} :
    Always step P s run ↔ ∀ pre, pre <+: run → P (pre.foldl step s) := by
  induction run generalizing s with
  | nil => simp [Always]
  | cons i run ih =>
    rw [Always, ih]
    constructor
    · rintro ⟨hs, hrun⟩ pre hpre
      cases pre with
      | nil => exact hs
      | cons j pre =>
        obtain ⟨rfl, htail⟩ := List.cons_prefix_cons.mp hpre
        exact hrun pre htail
    · intro h
      refine ⟨h [] List.nil_prefix, fun pre hpre ↦ ?_⟩
      exact h (i :: pre) (List.cons_prefix_cons.mpr ⟨rfl, hpre⟩)

theorem Always.mono {Q : σ → Prop} (h : ∀ s, P s → Q s) {s : σ} {run : List ι}
    (hrun : Always step P s run) : Always step Q s run := by
  induction run generalizing s with
  | nil => exact h s hrun
  | cons i run ih => exact ⟨h s hrun.1, ih hrun.2⟩

/-- A condition on the steps that is enough for an invariant. -/
theorem always_of_each (P : σ → Prop) (hstep : ∀ s i, P s → C s i → P (step s i)) {s : σ} (hs : P s)
    {run : List ι} (hrun : Each step C s run) : Always step P s run := by
  induction run generalizing s with
  | nil => exact hs
  | cons i run ih => exact ⟨hs, ih (hstep s i hs hrun.1) hrun.2⟩

/-- **The exact condition for an invariant.** -/
theorem always_iff_each (hstep : ∀ s i, P s → (P (step s i) ↔ C s i)) {s : σ} (hs : P s)
    (run : List ι) : Always step P s run ↔ Each step C s run := by
  refine ⟨fun hrun ↦ ?_, always_of_each P (fun s i hs hi ↦ (hstep s i hs).mpr hi) hs⟩
  induction run generalizing s with
  | nil => trivial
  | cons i run ih =>
    have hi : P (step s i) := hrun.2.head
    exact ⟨(hstep s i hs).mp hi, ih hi hrun.2⟩

/-- The same where `P` needs an invariant that depends on it. -/
theorem always_iff_each_of_inv (I : σ → Prop)
    (hstep : ∀ s i, P s → I s → (P (step s i) ↔ C s i))
    (hinv : ∀ s i, P s → I s → C s i → I (step s i)) {s : σ} (hs : P s) (hI : I s)
    (run : List ι) : Always step P s run ↔ Each step C s run := by
  induction run generalizing s with
  | nil => exact iff_of_true hs trivial
  | cons i run ih =>
    rw [Always, Each, and_iff_right hs]
    constructor
    · intro hrun
      have hi : C s i := (hstep s i hs hI).mp hrun.head
      exact ⟨hi, (ih hrun.head (hinv s i hs hI hi)).mp hrun⟩
    · rintro ⟨hi, hrun⟩
      exact (ih ((hstep s i hs hI).mpr hi) (hinv s i hs hI hi)).mpr hrun

/-- A condition on the inputs alone. -/
theorem each_iff_forall_mem {A : ι → Prop} {s : σ} {run : List ι} :
    Each step (fun _ i ↦ A i) s run ↔ ∀ i ∈ run, A i := by
  induction run generalizing s with
  | nil => simp [Each]
  | cons i run ih => rw [Each, ih, List.forall_mem_cons]

/-- What holds of every state and every input satisfying `A` holds at each step of a run whose
inputs satisfy `A`. -/
theorem each_of_forall {A : ι → Prop} (h : ∀ s i, A i → C s i) {s : σ} {run : List ι}
    (hrun : ∀ i ∈ run, A i) : Each step C s run := by
  induction run generalizing s with
  | nil => trivial
  | cons i run ih =>
    exact ⟨h s i (hrun i (by simp)), ih fun j hj ↦ hrun j (by simp [hj])⟩

/-- **An invariant**: what every step preserves holds in every state that can be reached. -/
theorem invariant_of_step {r : σ → σ → Prop} (Inv : σ → Prop)
    (hstep : ∀ s t, Inv s → r s t → Inv t) {s t : σ} (hs : Inv s)
    (hreach : Relation.ReflTransGen r s t) : Inv t := by
  induction hreach with
  | refl => exact hs
  | tail _ hlast ih => exact hstep _ _ ih hlast

/-! ## Results -/

section Outputs

variable {τ ο : Type*}

/-- The results of a run, one for each input. -/
def outputs (f : σ → ι → ο × σ) : σ → List ι → List ο
  | _, [] => []
  | s, i :: run => (f s i).1 :: outputs f (f s i).2 run

/-- **The exact condition for the same results.** -/
theorem outputs_eq_iff_each {f : σ → ι → ο × σ} {g : τ → ι → ο × τ} {R : σ → τ → Prop}
    {C : σ → ι → Prop} (hsame : ∀ s t i, R s t → ((f s i).1 = (g t i).1 ↔ C s i))
    (hrel : ∀ s t i, R s t → C s i → R (f s i).2 (g t i).2) {s : σ} {t : τ} (h : R s t)
    (run : List ι) : outputs f s run = outputs g t run ↔ Each (fun s i ↦ (f s i).2) C s run := by
  induction run generalizing s t with
  | nil => exact iff_of_true rfl trivial
  | cons i run ih =>
    rw [outputs, outputs, List.cons.injEq, Each, hsame s t i h]
    exact and_congr_right fun hi ↦ ih (hrel s t i h hi)

end Outputs

end Transition
