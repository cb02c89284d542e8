import GuestAgent.Python.Object
import Mathlib.Data.List.DropRight

/-!
# Methods of byte strings

`strip` and `split` go by what is white space in the locale `C`.  `stringEscape` is the codec
`string-escape`, by which the octal escapes in a mount table are read.
-/

set_option autoImplicit false

namespace GuestAgent

/-- `s.strip()`. -/
def strip (s : Bytes) : Bytes := (s.dropWhile isSpaceByte).rdropWhile isSpaceByte

/-- `s.split()`. -/
def split (s : Bytes) : List Bytes := (s.splitOnP isSpaceByte).filter (· ≠ [])

/-! ## Escapes -/

/-- The value of a hexadecimal digit. -/
def hexDigit (b : UInt8) : Option ℕ :=
  if 0x30 ≤ b && b ≤ 0x39 then some (b.toNat - 0x30)
  else if 0x41 ≤ b && b ≤ 0x46 then some (b.toNat - 0x41 + 10)
  else if 0x61 ≤ b && b ≤ 0x66 then some (b.toNat - 0x61 + 10)
  else none

/-- What an escape without digits stands for. -/
def simpleEscapes : List (UInt8 × Bytes) :=
  [(0x0A, []), (0x5C, [0x5C]), (0x27, [0x27]), (0x22, [0x22]), (0x62, [0x08]), (0x66, [0x0C]),
   (0x74, [0x09]), (0x6E, [0x0A]), (0x72, [0x0D]), (0x76, [0x0B]), (0x61, [0x07])]

/-- The octal digits a byte string begins with, three at most. -/
def octalDigits (s : Bytes) : List ℕ :=
  ((s.take 3).takeWhile fun b ↦ 0x30 ≤ b && b ≤ 0x37).map fun b ↦ b.toNat - 0x30

/-- What is behind a backslash: what it stands for, and how many bytes it takes. -/
def escape (s : Bytes) : Option (Bytes × ℕ) :=
  match s with
  | [] => none
  | c :: s =>
    match simpleEscapes.lookup c with
    | some bs => some (bs, 1)
    | none =>
      let digits := octalDigits (c :: s)
      if digits ≠ [] then some ([.ofNat (digits.foldl (fun n d ↦ 8 * n + d) 0)], digits.length)
      else if c = 0x78 then do
        let x ← s[0]?.bind hexDigit
        let y ← s[1]?.bind hexDigit
        some ([.ofNat (16 * x + y)], 3)
      else some ([0x5C, c], 1)

/-- Decode from where `n` bytes have been taken by an escape. -/
def stringEscapeFrom : ℕ → Bytes → Option Bytes
  | _, [] => some []
  | n + 1, _ :: s => stringEscapeFrom n s
  | 0, b :: s =>
    if b = 0x5C then do
      let (bs, n) ← escape s
      (stringEscapeFrom n s).map (bs ++ ·)
    else (stringEscapeFrom 0 s).map (b :: ·)

/-- `s.decode("string-escape")`, or nothing where it raises `ValueError`. -/
def stringEscape (s : Bytes) : Option Bytes := stringEscapeFrom 0 s

example : stringEscape (ascii "/mnt/a\\040b\\q") = some (ascii "/mnt/a b\\q") := by decide

/-! ## White space at the ends -/

/-- No white space at either end. -/
def Stripped (s : Bytes) : Prop :=
  ∀ b, s.head? = some b ∨ s.getLast? = some b → ¬ isSpaceByte b

theorem strip_concat_newline (s : Bytes) : strip (s ++ [0x0A]) = strip s := by
  rw [strip, List.dropWhile_append]
  split
  · rename_i h
    rw [strip, List.isEmpty_iff.mp h]
    rfl
  · exact List.rdropWhile_concat_pos isSpaceByte _ _ rfl

theorem strip_eq_nil_iff {s : Bytes} : strip s = [] ↔ ∀ b ∈ s, isSpaceByte b := by
  rw [strip, List.rdropWhile_eq_nil_iff]
  constructor
  · intro h b hb
    rw [← List.takeWhile_append_dropWhile (p := isSpaceByte) (l := s), List.mem_append] at hb
    exact hb.elim List.mem_takeWhile_imp (h b)
  · exact fun h b hb ↦ h b ((List.dropWhile_sublist _).mem hb)

theorem strip_eq_self_iff {s : Bytes} : strip s = s ↔ Stripped s := by
  have hboth : strip s = s ↔ s.dropWhile isSpaceByte = s ∧ s.rdropWhile isSpaceByte = s := by
    constructor
    · intro h
      have hprefix : strip s <+: s.dropWhile isSpaceByte := List.rdropWhile_prefix _ _
      have hsuffix : s.dropWhile isSpaceByte <:+ s := List.dropWhile_suffix _
      have hdrop : s.dropWhile isSpaceByte = s :=
        hsuffix.eq_of_length_le (by rw [h] at hprefix; exact hprefix.length_le)
      refine ⟨hdrop, ?_⟩
      rwa [strip, hdrop] at h
    · rintro ⟨hdrop, hrdrop⟩
      rw [strip, hdrop, hrdrop]
  rw [hboth, List.rdropWhile_eq_self_iff]
  rcases s with _ | ⟨a, s⟩
  · simp [Stripped]
  · rw [List.dropWhile_eq_self_iff, Stripped]
    simp only [List.length_cons, Nat.zero_lt_succ, List.getElem_cons_zero, forall_true_left, ne_eq,
      reduceCtorEq, not_false_eq_true, List.head?_cons, Option.some_inj,
      List.getLast?_eq_some_getLast (List.cons_ne_nil a s)]
    constructor
    · rintro ⟨ha, hlast⟩ b (rfl | rfl)
      · exact ha
      · exact hlast
    · exact fun h ↦ ⟨h a (.inl rfl), h _ (.inr rfl)⟩

end GuestAgent
