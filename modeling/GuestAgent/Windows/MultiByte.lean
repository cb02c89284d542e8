import GuestAgent.Library.Heap
import GuestAgent.Windows.Utf16

/-!
# Strings on Windows

The two consumers of the credentials block are 32-bit C++ programs.  What they use of the system to
handle strings is here, as programs over memory: `MultiByteToWideChar`, with the conversion left to
a `Utf8Decoder`, and `wcslen` and `wcschr`.

`MultiByteToWideChar` is told how many bytes to convert, where `-1` stands for a string with its NUL
and `0` is an error, and how many units there is room for, where `0` asks how many are needed.  What
there is no room for is left out, and then the function reports an error.
-/

set_option autoImplicit false

namespace GuestAgent

open CString CHeap Effect Effect.Prog

/-- `sizeof(WCHAR)`. -/
def sizeofWchar : ℕ := 2

/-- The size of the address space: no string is longer. -/
def addressSpace : ℕ := 2 ^ 32

/-- As much of it in units. -/
def wideSpace : ℕ := 2 ^ 31

section Programs

variable {O X τ ε : Type} {RX : X → Type}

/-- `wcslen`. -/
def wcslen (sz : Ptr) : MemProg O RX ε ℕ := do
  let str ← scanWide sz wideSpace
  return str.length

/-- `wcschr`: the place of the first `c` in a string. -/
def wcschr (sz : Ptr) (c : UInt16) : MemProg O RX ε (Option Ptr) := do
  let str ← scanWide sz wideSpace
  return if c ∈ str then some (sz.add (sizeofWchar * (str.takeWhile (· ≠ c)).length)) else none

/-- `MultiByteToWideChar(CP_UTF8, 0, src, cb, dst, cch)`. -/
def multiByteToWideChar (dec : Utf8Decoder) (src : Ptr) (cb : Int) (dst : Option Ptr) (cch : Int) :
    MemProg O RX ε ℕ := do
  if cb = 0 ∨ cch < 0 then return 0
  let bytes ← if cb < 0 then (· ++ [0]) <$> scan src addressSpace else load src cb.toNat
  let units := dec.decode bytes
  if cch = 0 then return units.length
  match dst with
  | none => return 0
  | some dst =>
    store dst (wideBytes (units.take cch.toNat))
    return if units.length ≤ cch then units.length else 0

end Programs

section Runs

variable {O X τ ε : Type} {RX : X → Type} {m : Machine O RX τ} {s : MState O τ}
variable {i j size n : ℕ} {o o' : O} {as bs cs : Bytes} {v w : Wide} {off : Int}

/-- A string, and zeros up to `n` units. -/
def padded (w : Wide) (n : ℕ) : Wide := w ++ List.replicate (n - w.length) 0

theorem length_padded (h : w.length ≤ n) : (padded w n).length = n := by
  rw [padded, List.length_append, List.length_replicate]
  omega

/-- A string from a message, with its NUL, is no longer than an address space. -/
theorem length_padded_le_wideSpace (h : w.length ≤ n) (hn : n ≤ 1024) :
    (padded w (n + 1)).length ≤ wideSpace := by
  rw [length_padded (by omega), wideSpace]
  omega

theorem zero_mem_padded (h : w.length < n) : 0 ∈ padded w n := by
  refine List.mem_append_right _ (List.mem_replicate.mpr ⟨by omega, rfl⟩)

@[simp] theorem takeWhile_padded (w : Wide) (n : ℕ) :
    (padded w n).takeWhile (· ≠ 0) = w.takeWhile (· ≠ 0) := by
  have hzeros (k : ℕ) : (List.replicate k (0 : UInt16)).takeWhile (· ≠ 0) = [] := by
    cases k <;> rfl
  rw [padded, List.takeWhile_append, hzeros, List.append_nil]
  split
  · rename_i hlen
    exact (List.IsPrefix.eq_of_length (List.takeWhile_prefix _) hlen).symm
  · rfl

/-- A string that starts an object is read whole. -/
theorem run_scanWide_full (h : s.heap.Full i o (wideBytes v)) (hnul : 0 ∈ v)
    (hn : v.length ≤ wideSpace) :
    (scanWide ⟨i, 0⟩ wideSpace : MemProg O RX ε _).run m.handle s =
      (.ok (v.takeWhile (· ≠ 0)), s) := by
  have hsplit : s.heap.Holds i o (wideBytes v).length ([] ++ wideBytes v) := h
  exact hsplit.run_scanWide (show (0 : Int) = ([] : Bytes).length from rfl) hnul hn

theorem run_wcslen (h : s.heap.Full i o (wideBytes v)) (hnul : 0 ∈ v)
    (hn : v.length ≤ wideSpace) :
    (wcslen ⟨i, 0⟩ : MemProg O RX ε _).run m.handle s =
      (.ok (v.takeWhile (· ≠ 0)).length, s) := by
  rw [wcslen, run_bind_ok (run_scanWide_full h hnul hn)]
  rfl

theorem run_wcschr (h : s.heap.Full i o (wideBytes v)) (hnul : 0 ∈ v)
    (hn : v.length ≤ wideSpace) (c : UInt16) :
    (wcschr ⟨i, 0⟩ c : MemProg O RX ε _).run m.handle s =
      (.ok (if c ∈ v.takeWhile (· ≠ 0) then
        some (Ptr.add ⟨i, 0⟩ (sizeofWchar * ((v.takeWhile (· ≠ 0)).takeWhile (· ≠ c)).length))
        else none), s) := by
  rw [wcschr, run_bind_ok (run_scanWide_full h hnul hn)]
  rfl

/-- **A conversion into a zeroed array with a unit more than there are bytes.** -/
theorem exists_run_multiByteToWideChar (dec : Utf8Decoder)
    (hsrc : s.heap.Holds j o' size (as ++ (bs ++ cs))) (hoff : off = as.length)
    (hdst : s.heap.Full i o (List.replicate (2 * n) 0)) (hn : bs.length < n) :
    ∃ t, (multiByteToWideChar dec ⟨j, off⟩ bs.length (some ⟨i, 0⟩) n :
        MemProg O RX ε _).run m.handle s =
        (.ok (dec.decode bs).length, t) ∧
      t.heap.Full i o (wideBytes (padded (dec.decode bs) n)) ∧ SameBut i s t ∧
        t.heap.released = s.heap.released := by
  have hle := dec.length_le bs
  by_cases h0 : bs.length = 0
  · -- nothing to convert is an error, and nothing is written
    obtain rfl := List.length_eq_zero_iff.mp h0
    refine ⟨s, by rw [dec.decode_nil]; rfl, ?_, ⟨fun _ _ ↦ rfl, rfl, rfl, rfl, rfl⟩, rfl⟩
    rwa [dec.decode_nil, padded, List.nil_append, List.length_nil, Nat.sub_zero,
      wideBytes_replicate_zero]
  · have hsplit : List.replicate (2 * n) (0 : UInt8) =
        [] ++ (List.replicate (2 * (dec.decode bs).length) 0 ++
          List.replicate (2 * (n - (dec.decode bs).length)) 0) := by
      rw [List.nil_append, List.replicate_append_replicate]
      congr 1
      omega
    have hholds : s.heap.Holds i o (2 * n) (List.replicate (2 * n) 0) := by
      simpa only [Heap.Full, List.length_replicate] using hdst
    rw [hsplit] at hholds
    have hlen := (length_wideBytes (dec.decode bs)).trans
      (List.length_replicate (n := 2 * (dec.decode bs).length) (a := (0 : UInt8))).symm
    obtain ⟨t, hrun, hfull, hsame, hrel⟩ := hholds.exists_run_store (m := m) (ε := ε)
      (show (0 : Int) = ([] : Bytes).length from rfl) hlen
    rw [List.nil_append, ← wideBytes_replicate_zero, ← wideBytes_append, ← padded] at hfull
    have hlen : (wideBytes (padded (dec.decode bs) n)).length = 2 * n := by
      rw [length_wideBytes, length_padded (by omega)]
    refine ⟨t, ?_, hfull.full hlen, hsame, hrel⟩
    have htake : (dec.decode bs).take n = dec.decode bs := List.take_of_length_le (by omega)
    rw [multiByteToWideChar, if_neg (by omega), if_neg (by omega)]
    simp only [Int.toNat_natCast]
    rw [run_bind_ok (hsrc.run_load hoff), if_neg (by omega), htake, run_bind_ok hrun,
      if_pos (by omega)]
    rfl

/-- A string of bytes is read whole. -/
theorem run_scan_string (hsrc : s.heap.Full i o (bs ++ 0 :: cs)) (hbs : ∀ b ∈ bs, b ≠ 0)
    (hspace : (bs ++ 0 :: cs).length ≤ addressSpace) :
    ((· ++ [0]) <$> scan ⟨i, 0⟩ addressSpace : MemProg O RX ε _).run m.handle s =
      (.ok (bs ++ [0]), s) := by
  have hstr : (bs ++ 0 :: cs).takeWhile (· ≠ 0) = bs := by
    rw [List.takeWhile_append_of_pos (by simpa using hbs), List.takeWhile_cons_of_neg (by simp),
      List.append_nil]
  have hsplit : s.heap.Holds i o (bs ++ 0 :: cs).length ([] ++ (bs ++ 0 :: cs)) := hsrc
  have hoff : (0 : Int) = ([] : Bytes).length := rfl
  rw [← bind_pure_comp, run_bind_ok (hsplit.run_scan hoff (by simp) hspace), hstr]
  rfl

/-- A string with its NUL is measured. -/
theorem run_multiByteToWideChar_length (dec : Utf8Decoder)
    (hsrc : s.heap.Full i o (bs ++ 0 :: cs)) (hbs : ∀ b ∈ bs, b ≠ 0)
    (hspace : (bs ++ 0 :: cs).length ≤ addressSpace) :
    (multiByteToWideChar dec ⟨i, 0⟩ (-1) none 0 : MemProg O RX ε _).run m.handle s =
      (.ok (dec.decode (bs ++ [0])).length, s) := by
  rw [multiByteToWideChar, if_neg (by decide), if_pos (by decide),
    run_bind_ok (run_scan_string hsrc hbs hspace)]
  rfl

/-- A string with its NUL is converted into an array that is just large enough. -/
theorem exists_run_multiByteToWideChar_all (dec : Utf8Decoder)
    (hsrc : s.heap.Full i o (bs ++ 0 :: cs)) (hbs : ∀ b ∈ bs, b ≠ 0)
    (hspace : (bs ++ 0 :: cs).length ≤ addressSpace) {ds : Bytes}
    (hdst : s.heap.Full j o' ds) (hlen : ds.length = 2 * (dec.decode (bs ++ [0])).length)
    (hne : dec.decode (bs ++ [0]) ≠ []) :
    ∃ t, (multiByteToWideChar dec ⟨i, 0⟩ (-1) (some ⟨j, 0⟩) (dec.decode (bs ++ [0])).length :
        MemProg O RX ε _).run m.handle s = (.ok (dec.decode (bs ++ [0])).length, t) ∧
      t.heap.Full j o' (wideBytes (dec.decode (bs ++ [0]))) ∧ SameBut j s t ∧
        t.heap.released = s.heap.released := by
  set units := dec.decode (bs ++ [0])
  have hpos : 0 < units.length := List.length_pos_iff.mpr hne
  have hholds : s.heap.Holds j o' ds.length ([] ++ (ds ++ [])) := by
    rw [List.nil_append, List.append_nil]
    exact hdst
  obtain ⟨t, hrun, hfull, hsame, hrel⟩ := hholds.exists_run_store (m := m) (ε := ε)
    (show (0 : Int) = ([] : Bytes).length from rfl)
    ((length_wideBytes units).trans hlen.symm)
  rw [List.nil_append, List.append_nil] at hfull
  refine ⟨t, ?_, hfull.full ((length_wideBytes units).trans hlen.symm), hsame, hrel⟩
  rw [multiByteToWideChar, if_neg (by omega), if_pos (by decide),
    run_bind_ok (run_scan_string hsrc hbs hspace)]
  simp only [Int.toNat_natCast]
  rw [if_neg (by omega), List.take_of_length_le le_rfl, run_bind_ok hrun, if_pos le_rfl]
  rfl

end Runs

end GuestAgent
