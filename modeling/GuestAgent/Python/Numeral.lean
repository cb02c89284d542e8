import GuestAgent.Python.Object
import Mathlib.Tactic.IntervalCases

/-!
# Decimal numerals

`strNat n` is `str(n)`, which is also what the conversion `%d` writes.  The last digit of a numeral
is the remainder by ten and what stands before it is the numeral of the quotient, so that what holds
of all numerals is proved by recursion on that.
-/

set_option autoImplicit false

namespace GuestAgent

/-- `str` of a number. -/
def strNat (n : ℕ) : Bytes := ascii (toString n)

/-- The byte of a digit. -/
def digit (d : ℕ) : UInt8 := UInt8.ofNat (0x30 + d)

/-- The first digit of a numeral. -/
def leadingDigit (n : ℕ) : ℕ := if n < 10 then n else leadingDigit (n / 10)

theorem strNat_eq_map (n : ℕ) :
    strNat n = (Nat.toDigits 10 n).map fun c ↦ UInt8.ofNat c.toNat := by
  rw [strNat, ascii, Nat.toString_eq_ofList_toDigits, String.toList_ofList]

theorem ofNat_digitChar {d : ℕ} (h : d < 10) : UInt8.ofNat d.digitChar.toNat = digit d := by
  interval_cases d <;> rfl

theorem strNat_of_lt {n : ℕ} (h : n < 10) : strNat n = [digit n] := by
  rw [strNat_eq_map, Nat.toDigits_of_lt_base h, List.map_singleton, ofNat_digitChar h]

theorem strNat_of_le {n : ℕ} (h : 10 ≤ n) : strNat n = strNat (n / 10) ++ [digit (n % 10)] := by
  rw [strNat_eq_map, strNat_eq_map, Nat.toDigits_of_base_le (by decide) h, List.map_append,
    List.map_singleton, ofNat_digitChar (Nat.mod_lt n (by decide))]

/-- **Recursion on a numeral.** -/
@[elab_as_elim]
theorem numeral_induction {motive : ℕ → Prop} (lt : ∀ n, n < 10 → motive n)
    (le : ∀ n, 10 ≤ n → motive (n / 10) → motive n) (n : ℕ) : motive n := by
  rcases Nat.lt_or_ge n 10 with h | h
  · exact lt n h
  · exact le n h (numeral_induction lt le (n / 10))

theorem strNat_ne_nil (n : ℕ) : strNat n ≠ [] := by
  rcases Nat.lt_or_ge n 10 with h | h
  · simp [strNat_of_lt h]
  · simp [strNat_of_le h]

theorem leadingDigit_lt (n : ℕ) : leadingDigit n < 10 := by
  induction n using numeral_induction with
  | lt n h => rwa [leadingDigit, if_pos h]
  | le n h ih => rwa [leadingDigit, if_neg (Nat.not_lt.mpr h)]

theorem head?_strNat (n : ℕ) : (strNat n).head? = some (digit (leadingDigit n)) := by
  induction n using numeral_induction with
  | lt n h => rw [strNat_of_lt h, leadingDigit, if_pos h, List.head?_cons]
  | le n h ih =>
    have hlead : leadingDigit n = leadingDigit (n / 10) := by
      rw [leadingDigit, if_neg (Nat.not_lt.mpr h)]
    rw [strNat_of_le h, List.head?_append, ih, hlead, Option.some_or]

theorem digit_toNat {d : ℕ} (h : d < 10) : (digit d).toNat = 0x30 + d := by
  rw [digit, UInt8.toNat_ofNat']
  exact Nat.mod_eq_of_lt (by omega)

theorem digit_inj {c d : ℕ} (hc : c < 10) (hd : d < 10) : digit c = digit d ↔ c = d := by
  rw [← UInt8.toNat_inj, digit_toNat hc, digit_toNat hd]
  exact Nat.add_left_cancel_iff

theorem digit_le_iff {c d : ℕ} (hc : c < 10) (hd : d < 10) : digit c ≤ digit d ↔ c ≤ d := by
  rw [UInt8.le_iff_toNat_le, digit_toNat hc, digit_toNat hd]
  exact Nat.add_le_add_iff_left

/-- A numeral has nothing but digits in it. -/
theorem exists_digit_of_mem {b : UInt8} {n : ℕ} (h : b ∈ strNat n) : ∃ d < 10, b = digit d := by
  induction n using numeral_induction with
  | lt n hn =>
    rw [strNat_of_lt hn, List.mem_singleton] at h
    exact ⟨n, hn, h⟩
  | le n hn ih =>
    rw [strNat_of_le hn, List.mem_append, List.mem_singleton] at h
    rcases h with h | h
    · exact ih h
    · exact ⟨n % 10, Nat.mod_lt n (by decide), h⟩

/-- The numeral of a digit belongs to no other number. -/
theorem strNat_eq_digit_iff {n d : ℕ} (hd : d < 10) : strNat n = [digit d] ↔ n = d := by
  rcases Nat.lt_or_ge n 10 with h | h
  · rw [strNat_of_lt h, List.singleton_inj, digit_inj h hd]
  · have hlen : (strNat (n / 10)).length ≠ 0 := fun h0 ↦
      strNat_ne_nil (n / 10) (List.length_eq_zero_iff.mp h0)
    refine iff_of_false (fun heq ↦ hlen ?_) (by omega)
    have := congrArg List.length heq
    rwa [strNat_of_le h, List.length_append, List.length_singleton, List.length_singleton,
      Nat.add_eq_right] at this

end GuestAgent
