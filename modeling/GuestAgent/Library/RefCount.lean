import Mathlib.Data.List.Count
import Mathlib.Logic.Function.Basic

/-!
# Counting references

Objects hold references in their fields: `f i` is what object `i` refers to, if it refers to
anything.  `refs l f x` is how many of the objects in `l` refer to `x`.  A reference count is right
if it is that number, with the references that are not in any field.

There are three ways for it to change: an object comes, which refers to nothing yet, an object that
refers to nothing goes, and a field is assigned.
-/

set_option autoImplicit false

namespace RefCount

variable {ι τ : Type} [DecidableEq τ]

/-- How many of the objects in `l` refer to `x`. -/
def refs (l : List ι) (f : ι → Option τ) (x : τ) : ℕ := l.countP fun i ↦ f i = some x

variable {l : List ι} {f : ι → Option τ} {i : ι} {x : τ}

@[simp] theorem refs_nil (f : ι → Option τ) (x : τ) : refs [] f x = 0 := rfl

theorem refs_cons (i : ι) (l : List ι) (f : ι → Option τ) (x : τ) :
    refs (i :: l) f x = refs l f x + if f i = some x then 1 else 0 := by
  simp [refs, List.countP_cons]

theorem refs_pos (hi : i ∈ l) (hx : f i = some x) : 0 < refs l f x :=
  List.countP_pos_iff.mpr ⟨i, hi, decide_eq_true hx⟩

variable [DecidableEq ι]

/-- A field of none of the objects does not matter. -/
theorem refs_update_of_notMem (hi : i ∉ l) (b : Option τ) (x : τ) :
    refs l (Function.update f i b) x = refs l f x := by
  refine List.countP_congr fun j hj ↦ ?_
  have hne : j ≠ i := fun h ↦ hi (h ▸ hj)
  rw [Function.update_of_ne hne]

/-- A field is assigned. -/
theorem refs_update (hl : l.Nodup) (hi : i ∈ l) (b : Option τ) (x : τ) :
    refs l (Function.update f i b) x + (if f i = some x then 1 else 0) =
      refs l f x + if b = some x then 1 else 0 := by
  induction l with
  | nil => cases hi
  | cons j l ih =>
    obtain ⟨hj, hl⟩ := List.nodup_cons.mp hl
    rw [refs_cons, refs_cons]
    rcases List.mem_cons.mp hi with rfl | hi
    · rw [refs_update_of_notMem hj, Function.update_self]
      omega
    · have hne : j ≠ i := fun h ↦ hj (h ▸ hi)
      have hrest := ih hl hi
      rw [Function.update_of_ne hne]
      omega

/-- An object goes that refers to nothing. -/
theorem refs_erase (hi : f i = none) (x : τ) : refs (l.erase i) f x = refs l f x := by
  rw [refs, List.countP_erase]
  simp [hi, refs]

end RefCount
