import Mathlib.Data.Int.ModEq
import Mathlib.Data.List.TakeWhile

/-!
# Bytes in memory, as C reads them

A C program that parses a message reads it from memory at addresses it computes, and nothing stops
it where the message ends.  Here memory is a function from addresses to bytes, so that a read past
the end of an object gives whatever happens to be there; `Holds m p bs` says that the bytes `bs` are
in memory from `p` on.

`strndup` reads a string of at most `n` bytes, up to the first NUL.  What it returns is known where
memory is (`strndup_of_holds`); past that only its first byte is.

The two conversions a parser applies to lengths are here too: `toInt32` is what an `int` keeps of a
number and `toSize` what a 64-bit `size_t` does.
-/

set_option autoImplicit false

namespace CString

/-- A byte at every address. -/
abbrev Memory := Int → UInt8

/-- What a 32-bit `int` keeps of a number. -/
def toInt32 (x : Int) : Int := x.bmod (2 ^ 32)

/-- What a 64-bit `size_t` keeps of a number. -/
def toSize (x : Int) : ℕ := (x % 2 ^ 64).toNat

theorem toInt32_bounds (x : Int) : -2 ^ 31 ≤ toInt32 x ∧ toInt32 x < 2 ^ 31 := by
  rw [toInt32, Int.bmod_def]
  split <;> omega

theorem toInt32_of_bounds {x : Int} (h : -2 ^ 31 ≤ x) (h' : x < 2 ^ 31) : toInt32 x = x := by
  rw [toInt32, Int.bmod_def]
  split <;> omega

/-- A 32-bit length read as an `int`. -/
theorem toInt32_natCast {n : ℕ} (h : n < 2 ^ 32) :
    toInt32 n = if n < 2 ^ 31 then (n : Int) else n - 2 ^ 32 := by
  rw [toInt32, Int.bmod_def]
  split <;> split <;> omega

theorem toInt32_ne_zero {x : Int} (h : ¬ ∃ k, x = 2 ^ 32 * k) : toInt32 x ≠ 0 := by
  intro hx
  rw [toInt32, Int.bmod_def] at hx
  have hmod : x % 2 ^ 32 = 0 := by
    split at hx <;> omega
  exact h ⟨x / 2 ^ 32, by omega⟩

/-- A conversion to `size_t` on the way to `int` changes nothing. -/
theorem toInt32_toSize (x : Int) : toInt32 (toSize x) = toInt32 x := by
  have hcast : ((toSize x : ℕ) : Int) = x % 2 ^ 64 := by
    rw [toSize]
    omega
  have hmod : x % 2 ^ 64 % ((2 ^ 32 : ℕ) : Int) = x % ((2 ^ 32 : ℕ) : Int) :=
    Int.emod_emod_of_dvd x (by decide)
  rw [toInt32, toInt32, Int.bmod_def, Int.bmod_def, hcast, hmod]

theorem toSize_natCast {n : ℕ} (h : n < 2 ^ 64) : toSize n = n := by
  rw [toSize]
  omega

theorem toSize_pos {x : Int} (h : x ≠ 0) (hlo : -2 ^ 64 < x) (hhi : x < 2 ^ 64) : 0 < toSize x := by
  rw [toSize]
  omega

namespace Memory

/-- Memory after `bs` was stored at `p`. -/
def write (m : Memory) (p : Int) (bs : List UInt8) : Memory := fun i ↦
  if p ≤ i then (bs[(i - p).toNat]?).getD (m i) else m i

/-- The bytes `bs` are in memory from `p` on. -/
def Holds (m : Memory) (p : Int) (bs : List UInt8) : Prop :=
  ∀ j (h : j < bs.length), m (p + j) = bs[j]

variable {m : Memory} {p : Int} {bs bs' : List UInt8}

theorem holds_write (m : Memory) (p : Int) (bs : List UInt8) : (m.write p bs).Holds p bs := by
  intro j hj
  simp [write, hj]

theorem write_of_lt {i : Int} (h : i < p) : m.write p bs i = m i := if_neg (by omega)

theorem write_of_ge {i : Int} (h : p + bs.length ≤ i) : m.write p bs i = m i := by
  have hlen : bs.length ≤ (i - p).toNat := by omega
  simp [write, List.getElem?_eq_none hlen]

theorem Holds.left (h : m.Holds p (bs ++ bs')) : m.Holds p bs := by
  intro j hj
  rw [h j (by rw [List.length_append]; omega), List.getElem_append_left hj]

theorem Holds.right (h : m.Holds p (bs ++ bs')) : m.Holds (p + bs.length) bs' := by
  intro j hj
  have hget := h (bs.length + j) (by rw [List.length_append]; omega)
  rw [List.getElem_append_right (by omega)] at hget
  simpa [Int.add_assoc] using hget

theorem Holds.tail {b : UInt8} (h : m.Holds p (b :: bs)) : m.Holds (p + 1) bs := by
  have hcons : m.Holds p ([b] ++ bs) := h
  exact hcons.right

end Memory

open Memory

/-- The `n` bytes from `p` on. -/
def bytesAt (m : Memory) (p : Int) : ℕ → List UInt8
  | 0 => []
  | n + 1 => m p :: bytesAt m (p + 1) n

/-- The 16-bit unit at `p`, with its low byte first. -/
def unitAt (m : Memory) (p : Int) : UInt16 := .ofNat ((m p).toNat + 0x100 * (m (p + 1)).toNat)

/-- The bytes of 16-bit units. -/
def wideBytes (w : List UInt16) : List UInt8 :=
  w.flatMap fun c ↦ [.ofNat c.toNat, .ofNat (c.toNat / 0x100)]

/-- The units from `p` up to the first NUL, at most `n` of them. -/
def wcsndup (m : Memory) (p : Int) : ℕ → List UInt16
  | 0 => []
  | n + 1 => if unitAt m p = 0 then [] else unitAt m p :: wcsndup m (p + 2) n

/-- `strndup(p, n)`: the bytes from `p` up to the first NUL, at most `n` of them. -/
def strndup (m : Memory) (p : Int) : ℕ → List UInt8
  | 0 => []
  | n + 1 => if m p = 0 then [] else m p :: strndup m (p + 1) n

theorem length_strndup_le (m : Memory) (p : Int) (n : ℕ) : (strndup m p n).length ≤ n := by
  induction n generalizing p with
  | zero => exact le_rfl
  | succ n ih =>
    rw [strndup]
    split
    · exact Nat.zero_le _
    · exact Nat.succ_le_succ (ih _)

theorem strndup_ne_zero (m : Memory) (p : Int) (n : ℕ) : ∀ b ∈ strndup m p n, b ≠ 0 := by
  induction n generalizing p with
  | zero => exact List.forall_mem_nil _
  | succ n ih =>
    rw [strndup]
    split
    · exact List.forall_mem_nil _
    · rename_i hne
      exact List.forall_mem_cons.mpr ⟨by simpa using hne, ih _⟩

/-! ## What is read where memory is known -/

section Holds

variable {m : Memory} {p : Int} {bs cs ds : List UInt8} {v w : List UInt16} {c : UInt16} {n : ℕ}

@[simp] theorem length_bytesAt (m : Memory) (p : Int) (n : ℕ) : (bytesAt m p n).length = n := by
  induction n generalizing p with
  | zero => rfl
  | succ n ih => rw [bytesAt, List.length_cons, ih]

theorem bytesAt_add (m : Memory) (p : Int) (k n : ℕ) :
    bytesAt m p (k + n) = bytesAt m p k ++ bytesAt m (p + k) n := by
  induction k generalizing p with
  | zero => simp [bytesAt]
  | succ k ih =>
    have hstep : p + 1 + k = p + (k + 1 : ℕ) := by omega
    rw [Nat.succ_add, bytesAt, bytesAt, ih, hstep, List.cons_append]

theorem bytesAt_of_holds (h : m.Holds p bs) : bytesAt m p bs.length = bs := by
  induction bs generalizing p with
  | nil => rfl
  | cons b bs ih =>
    have hb : m p = b := by
      have := h 0 (by simp)
      rwa [Nat.cast_zero, add_zero, List.getElem_cons_zero] at this
    rw [List.length_cons, bytesAt, hb, ih h.tail]

theorem holds_bytesAt (m : Memory) (p : Int) (n : ℕ) : m.Holds p (bytesAt m p n) := by
  induction n generalizing p with
  | zero => exact fun j hj ↦ absurd hj (Nat.not_lt_zero j)
  | succ n ih =>
    intro j hj
    cases j with
    | zero => simp [bytesAt]
    | succ j =>
      have hj' : j < (bytesAt m (p + 1) n).length := by simpa [bytesAt] using hj
      have hstep : p + (j + 1 : ℕ) = p + 1 + j := by omega
      rw [hstep, ih (p + 1) j hj']
      simp [bytesAt]

/-- Storing bytes in the middle of what is known. -/
theorem Memory.Holds.write (h : m.Holds p (bs ++ (cs ++ ds))) {cs' : List UInt8}
    (hlen : cs'.length = cs.length) :
    (m.write (p + bs.length) cs').Holds p (bs ++ (cs' ++ ds)) := by
  intro j hj
  have hj' : j < (bs ++ (cs ++ ds)).length := by
    simpa [hlen] using hj
  by_cases hlo : j < bs.length
  · rw [write_of_lt (by omega), h j hj', List.getElem_append_left hlo, List.getElem_append_left hlo]
  · rw [List.getElem_append_right (by omega)]
    by_cases hhi : j < bs.length + cs'.length
    · have hget := holds_write m (p + bs.length) cs' (j - bs.length) (by omega)
      rw [List.getElem_append_left (by omega), ← hget]
      congr 1
      omega
    · rw [write_of_ge (by omega), h j hj', List.getElem_append_right (by omega),
        List.getElem_append_right (by omega), List.getElem_append_right (by omega)]
      simp only [hlen]

/-- Bytes stored further up do not matter. -/
theorem Memory.Holds.write_of_le (h : m.Holds p bs) {q : Int} (hq : p + bs.length ≤ q) :
    (m.write q cs).Holds p bs := by
  intro j hj
  rw [write_of_lt (by omega), h j hj]

@[simp] theorem length_wideBytes (w : List UInt16) : (wideBytes w).length = 2 * w.length := by
  induction w with
  | nil => rfl
  | cons c w ih =>
    rw [wideBytes, List.flatMap_cons, List.length_append, ← wideBytes, ih, List.length_cons]
    simp only [List.length_cons, List.length_nil]
    omega

@[simp] theorem wideBytes_append (v w : List UInt16) :
    wideBytes (v ++ w) = wideBytes v ++ wideBytes w := List.flatMap_append

theorem wideBytes_replicate_zero (n : ℕ) :
    wideBytes (List.replicate n 0) = List.replicate (2 * n) 0 := by
  induction n with
  | zero => rfl
  | succ n ih =>
    rw [List.replicate_succ, wideBytes, List.flatMap_cons, ← wideBytes, ih, Nat.mul_succ,
      Nat.add_comm, ← List.replicate_append_replicate]
    rfl

/-- A unit is read as it was stored. -/
theorem unitAt_of_holds (h : m.Holds p (wideBytes (c :: w))) : unitAt m p = c := by
  have hlo := h 0 (by simp)
  have hhi := h 1 (by simp; omega)
  rw [Nat.cast_zero, add_zero] at hlo
  rw [Nat.cast_one] at hhi
  rw [unitAt, hlo, hhi]
  apply UInt16.toNat_inj.mp
  have hc : c.toNat < 2 ^ 16 := c.toNat_lt
  simp [wideBytes]
  omega

theorem Memory.Holds.tail_wide (h : m.Holds p (wideBytes (c :: w))) :
    m.Holds (p + 2) (wideBytes w) := by
  have hcons : m.Holds p (wideBytes [c] ++ wideBytes w) := h
  exact hcons.right

/-- **A string of units is read up to its NUL.** -/
theorem wcsndup_of_holds (h : m.Holds p (wideBytes v)) (hnul : 0 ∈ v) (hn : v.length ≤ n) :
    wcsndup m p n = v.takeWhile (· ≠ 0) := by
  induction v generalizing p n with
  | nil => simp at hnul
  | cons c v ih =>
    obtain ⟨n, rfl⟩ := Nat.exists_eq_succ_of_ne_zero (Nat.ne_zero_of_lt hn)
    rw [wcsndup, unitAt_of_holds h]
    by_cases hc : c = 0
    · rw [if_pos hc, List.takeWhile_cons_of_neg (by simpa using hc)]
    · have hmem : 0 ∈ v := (List.mem_cons.mp hnul).resolve_left (Ne.symm hc)
      rw [if_neg hc, List.takeWhile_cons_of_pos (by simpa using hc),
        ih h.tail_wide hmem (by simpa using hn)]

/-- What comes before the NUL is shorter than the whole. -/
theorem length_takeWhile_lt {α : Type} [DecidableEq α] {a : α} {l : List α} (h : a ∈ l) :
    (l.takeWhile (· ≠ a)).length < l.length := by
  induction l with
  | nil => cases h
  | cons b l ih =>
    by_cases hb : b = a
    · rw [List.takeWhile_cons_of_neg (by simpa using hb)]
      simp
    · rw [List.takeWhile_cons_of_pos (by simpa using hb), List.length_cons, List.length_cons]
      exact Nat.succ_lt_succ (ih ((List.mem_cons.mp h).resolve_left (Ne.symm hb)))

end Holds

/-- Within what is known to be in memory, `strndup` stops at the first NUL. -/
theorem strndup_of_holds {m : Memory} {bs : List UInt8} :
    ∀ {p : Int} {n : ℕ}, m.Holds p bs → n ≤ bs.length →
      strndup m p n = (bs.take n).takeWhile (· ≠ 0) := by
  induction bs with
  | nil =>
    intro p n _ hn
    obtain rfl : n = 0 := by simpa using hn
    rfl
  | cons b bs ih =>
    intro p n h hn
    cases n with
    | zero => rfl
    | succ n =>
      have hb : m p = b := by
        have := h 0 (by simp)
        rwa [Nat.cast_zero, add_zero, List.getElem_cons_zero] at this
      rw [strndup, hb, ih h.tail (by simpa using hn), List.take_succ_cons, List.takeWhile_cons]
      by_cases hz : b = 0 <;> simp [hz]

/-- A string with its NUL in memory is read whole, however many bytes more would be. -/
theorem strndup_of_holds_nul {m : Memory} {p : Int} {bs : List UInt8} {n : ℕ}
    (h : m.Holds p bs) (hnul : 0 ∈ bs) (hn : bs.length ≤ n) :
    strndup m p n = bs.takeWhile (· ≠ 0) := by
  induction bs generalizing p n with
  | nil => cases hnul
  | cons b bs ih =>
    obtain ⟨n, rfl⟩ := Nat.exists_eq_succ_of_ne_zero (Nat.ne_zero_of_lt hn)
    have hb : m p = b := by
      have := h 0 (by simp)
      rwa [Nat.cast_zero, add_zero, List.getElem_cons_zero] at this
    rw [strndup, hb]
    by_cases hz : b = 0
    · rw [if_pos hz, List.takeWhile_cons_of_neg (by simpa using hz)]
    · have hmem : 0 ∈ bs := (List.mem_cons.mp hnul).resolve_left (Ne.symm hz)
      rw [if_neg hz, List.takeWhile_cons_of_pos (by simpa using hz),
        ih h.tail hmem (by simpa using hn)]

/-- The first byte `strndup` returns. -/
theorem head?_strndup {m : Memory} {p : Int} {n : ℕ} (hn : 0 < n) (hp : m p ≠ 0) :
    (strndup m p n).head? = some (m p) := by
  obtain ⟨n, rfl⟩ := Nat.exists_eq_succ_of_ne_zero hn.ne'
  rw [strndup, if_neg hp, List.head?_cons]

end CString
