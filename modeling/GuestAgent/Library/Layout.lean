import GuestAgent.Library.CString

/-!
# Records in memory

A C program fills a record field by field, in whatever order, and what reads the record takes each
field from its own place.  `Memory.writeAll` are the stores, in order, each at its address.  If no
two of them overlap then all of them can be read back: `bytesAt_writeAll`.

Numbers are stored with their low byte first.  `leBytes n x` are `n` bytes of `x`, and `leNat` is
the number that bytes stand for.
-/

set_option autoImplicit false

namespace CString

/-! ## Numbers -/

/-- `n` bytes of a number, the low one first. -/
def leBytes : ℕ → ℕ → List UInt8
  | 0, _ => []
  | n + 1, x => .ofNat x :: leBytes n (x / 0x100)

/-- The number. -/
def leNat : List UInt8 → ℕ
  | [] => 0
  | b :: bs => b.toNat + 0x100 * leNat bs

@[simp] theorem length_leBytes (n x : ℕ) : (leBytes n x).length = n := by
  induction n generalizing x with
  | zero => rfl
  | succ n ih => rw [leBytes, List.length_cons, ih]

/-- As many bytes keep the number modulo a power of 256. -/
theorem leNat_leBytes (n x : ℕ) : leNat (leBytes n x) = x % 0x100 ^ n := by
  induction n generalizing x with
  | zero => rw [leBytes, leNat, pow_zero, Nat.mod_one]
  | succ n ih =>
    have hlow : (UInt8.ofNat x).toNat = x % 0x100 := UInt8.toNat_ofNat' ..
    rw [leBytes, leNat, ih, hlow, pow_succ', Nat.mod_mul]

theorem leNat_leBytes_of_lt {n x : ℕ} (h : x < 0x100 ^ n) : leNat (leBytes n x) = x := by
  rw [leNat_leBytes, Nat.mod_eq_of_lt h]

/-! ## Stores -/

namespace Memory

/-- Memory after some stores. -/
def writeAll (m : Memory) : List (Int × List UInt8) → Memory
  | [] => m
  | (p, bs) :: log => (m.write p bs).writeAll log

/-- Neither range reaches into the other. -/
def Apart (p : Int) (k : ℕ) (q : Int) (n : ℕ) : Prop := p + k ≤ q ∨ q + n ≤ p

end Memory

open Memory

variable {m : Memory} {p q : Int} {k n : ℕ} {bs : List UInt8} {log : List (Int × List UInt8)}

/-- What is read depends on what is there. -/
theorem bytesAt_congr {m' : Memory} (h : ∀ i, q ≤ i → i < q + n → m i = m' i) :
    bytesAt m q n = bytesAt m' q n := by
  induction n generalizing q with
  | zero => rfl
  | succ n ih =>
    rw [bytesAt, bytesAt, h q le_rfl (by omega), ih fun i hlo hhi ↦ h i (by omega) (by omega)]

/-- Part of what is the same is the same. -/
theorem bytesAt_of_bytesAt {m' : Memory} {p' : Int} (h : bytesAt m p n = bytesAt m' p' n) {i : ℕ}
    (hk : i + k ≤ n) : bytesAt m (p + i) k = bytesAt m' (p' + i) k := by
  obtain ⟨r, rfl⟩ := Nat.exists_eq_add_of_le hk
  rw [Nat.add_assoc, bytesAt_add, bytesAt_add m' p', bytesAt_add m (p + i), bytesAt_add m' (p' + i)]
    at h
  have htail := (List.append_inj h (by rw [length_bytesAt, length_bytesAt])).2
  exact (List.append_inj htail (by rw [length_bytesAt, length_bytesAt])).1

/-- A store elsewhere. -/
theorem bytesAt_write_of_apart (h : Apart p bs.length q n) :
    bytesAt (m.write p bs) q n = bytesAt m q n := by
  refine bytesAt_congr fun i hlo hhi ↦ ?_
  rcases h with h | h
  · exact write_of_ge (by omega)
  · exact write_of_lt (by omega)

theorem bytesAt_writeAll_of_apart (h : ∀ e ∈ log, Apart e.1 e.2.length q n) :
    bytesAt (m.writeAll log) q n = bytesAt m q n := by
  induction log generalizing m with
  | nil => rfl
  | cons e log ih =>
    obtain ⟨he, hlog⟩ := List.forall_mem_cons.mp h
    exact (ih hlog).trans (bytesAt_write_of_apart he)

/-- **Every field is read back**, if no two of them overlap. -/
theorem bytesAt_writeAll
    (h : log.Pairwise fun e f ↦ Apart f.1 f.2.length e.1 e.2.length) (he : (p, bs) ∈ log) :
    bytesAt (m.writeAll log) p bs.length = bs := by
  induction log generalizing m with
  | nil => cases he
  | cons e log ih =>
    obtain ⟨hhead, htail⟩ := List.pairwise_cons.mp h
    rcases List.mem_cons.mp he with rfl | he
    · exact (bytesAt_writeAll_of_apart hhead).trans (bytesAt_of_holds (holds_write m p bs))
    · exact ih htail he

end CString
