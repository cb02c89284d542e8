import GuestAgent.Library.Framing
import GuestAgent.Library.Transition
import GuestAgent.Python.Object
import Mathlib.Algebra.Group.Int.Defs

/-!
# Reading bytes without the `io` module

The daemon hands its logging configuration over as a file object over a byte string.  Where Python
is too old to have the `io` module, `BytesIO` stands in for `io.BytesIO`: it has the data and a
position in it.

`Io.read` and `Io.readline` are those of the `io` module, over the bytes that are left to be read.
The two classes do the same except for two things.  `BytesIO.readline` looks for the newline that
ends the line, and where the last line has none it reads nothing at all, instead of the line.  And
`Io.read` takes a `Py_ssize_t`, while `BytesIO.read` takes any integer.  `agrees_iff` says that
these are the only differences.
-/

set_option autoImplicit false

namespace GuestAgent

open Transition

/-- `s.find(b)`. -/
def find (b : UInt8) (s : Bytes) : Int :=
  match s.findIdx? (· == b) with
  | some i => i
  | none => -1

/-- An object of the class `BytesIO`. -/
structure BytesIO where
  data : Bytes
  pos : ℕ
  deriving DecidableEq

namespace BytesIO

/-- `__init__`. -/
def init (buffer : Bytes) : BytesIO := ⟨buffer, 0⟩

/-- `read`, where no argument is `None`. -/
def read (f : BytesIO) (n : Option Int) : Bytes × BytesIO :=
  let n := n.getD (-1)
  let n := if n < 0 then f.data.length else n.toNat
  if f.data.length ≤ f.pos then ([], f)
  else
    let newpos := min f.data.length (f.pos + n)
    ((f.data.drop f.pos).take (newpos - f.pos), { f with pos := newpos })

/-- `readline`. -/
def readline (f : BytesIO) : Bytes × BytesIO :=
  f.read (some (find 0x0A (f.data.drop f.pos) + 1))

end BytesIO

/-! ## The `io` module -/

/-- A `Py_ssize_t` of so many bits can hold the integer. -/
def FitsSsize (bits : ℕ) (n : Int) : Prop := -2 ^ (bits - 1) ≤ n ∧ n < 2 ^ (bits - 1)

instance (bits : ℕ) (n : Int) : Decidable (FitsSsize bits n) :=
  inferInstanceAs (Decidable (_ ∧ _))

namespace Io

/-- What `read` does with a size, from where `rest` is left to be read. -/
def readSize (rest : Bytes) : Option Int → Bytes × Bytes
  | none => (rest, [])
  | some n => if n < 0 then (rest, []) else (rest.take n.toNat, rest.drop n.toNat)

/-- `io.BytesIO.read`: `PyNumber_AsSsize_t` raises where the size is not a `Py_ssize_t`. -/
def read (bits : ℕ) (rest : Bytes) (n : Option Int) : Except PyExn Bytes × Bytes :=
  if ∀ i ∈ n, FitsSsize bits i then (readSize rest n).map .ok id
  else (.error .overflowError, rest)

/-- `io.BytesIO.readline`: a line with its newline, or what is left where there is none. -/
def readline (rest : Bytes) : Bytes × Bytes :=
  match Framing.cut 0x0A rest with
  | some (line, rest) => (Framing.terminate 0x0A line, rest)
  | none => (rest, [])

end Io

/-- A call on a file object. -/
inductive FileCall where
  | read (n : Option Int)
  | readline
  deriving DecidableEq, Repr

def BytesIO.call (f : BytesIO) : FileCall → Except PyExn Bytes × BytesIO
  | .read n => (f.read n).map .ok id
  | .readline => f.readline.map .ok id

def Io.call (bits : ℕ) (rest : Bytes) : FileCall → Except PyExn Bytes × Bytes
  | .read n => read bits rest n
  | .readline => (readline rest).map .ok id

/-- Call `readline` until it returns the empty string, `fuel` times at most. -/
def readLines {σ : Type} (readline : σ → Bytes × σ) : ℕ → σ → Option (List Bytes)
  | 0, _ => none
  | fuel + 1, f =>
    if (readline f).1 = [] then some []
    else (readLines readline fuel (readline f).2).map ((readline f).1 :: ·)

/-- The lines of the data, each with its newline, which the last one may lack. -/
def allLines (data : Bytes) : List Bytes :=
  (Framing.lines 0x0A data).map (Framing.terminate 0x0A) ++
    if Framing.tail 0x0A data = [] then [] else [Framing.tail 0x0A data]

/-- A call does not ask for more than a `Py_ssize_t`, nor for a line where one is left that has no
newline. -/
def FileCall.Ends (bits : ℕ) (f : BytesIO) : FileCall → Prop
  | .read n => ∀ i ∈ n, FitsSsize bits i
  | .readline => f.data.drop f.pos = [] ∨ 0x0A ∈ f.data.drop f.pos

instance (bits : ℕ) (f : BytesIO) : (c : FileCall) → Decidable (c.Ends bits f)
  | .read n => inferInstanceAs (Decidable (∀ i ∈ n, FitsSsize bits i))
  | .readline => inferInstanceAs (Decidable (_ ∨ _))

/-! ## One call -/

theorem find_of_notMem {b : UInt8} {s : Bytes} (h : b ∉ s) : find b s = -1 := by
  have hnone : s.findIdx? (· == b) = none := by
    rw [List.findIdx?_eq_none_iff]
    intro x hx
    exact beq_false_of_ne fun hxb ↦ h (hxb ▸ hx)
  rw [find, hnone]

theorem find_append {b : UInt8} {p : Bytes} (h : b ∉ p) (r : Bytes) :
    find b (p ++ b :: r) = p.length := by
  have hnone : p.findIdx? (· == b) = none := by
    rw [List.findIdx?_eq_none_iff]
    intro x hx
    exact beq_false_of_ne fun hxb ↦ h (hxb ▸ hx)
  rw [find, List.findIdx?_append, hnone, List.findIdx?_cons]
  simp

namespace BytesIO

/-- What is left to be read. -/
def rest (f : BytesIO) : Bytes := f.data.drop f.pos

theorem read_natCast (f : BytesIO) (k : ℕ) :
    ((f.read (some k)).1, (f.read (some k)).2.rest) = (f.rest.take k, f.rest.drop k) := by
  obtain ⟨data, pos⟩ := f
  have hk : ¬ (k : Int) < 0 := by omega
  rcases Nat.lt_or_ge pos data.length with hpos | hpos
  · have htake : (data.drop pos).take (min data.length (pos + k) - pos) =
        (data.drop pos).take k := by
      rw [List.take_eq_take_iff, List.length_drop]
      omega
    have hdrop : data.drop (min data.length (pos + k)) = data.drop (pos + k) := by
      rcases Nat.le_total data.length (pos + k) with hk | hk
      · rw [Nat.min_eq_left hk, List.drop_length, List.drop_eq_nil_of_le hk]
      · rw [Nat.min_eq_right hk]
    simp [read, rest, Nat.not_le.mpr hpos, hk, htake, hdrop]
  · have hrest : data.drop pos = [] := List.drop_eq_nil_of_le hpos
    simp [read, rest, hpos, hrest]

theorem read_of_neg (f : BytesIO) {n : Int} (h : n < 0) :
    f.read (some n) = f.read (some f.data.length) := by
  have hlen : ¬ (f.data.length : Int) < 0 := by omega
  simp only [read, Option.getD_some, if_pos h, if_neg hlen, Int.toNat_natCast]

/-- A negative number, or `None`, is a number that no more bytes are left than. -/
theorem read_all (f : BytesIO) :
    ((f.read (some f.data.length)).1, (f.read (some f.data.length)).2.rest) = (f.rest, []) := by
  have hlen : f.rest.length ≤ f.data.length := by
    rw [rest, List.length_drop]
    omega
  rw [read_natCast, List.take_of_length_le hlen, List.drop_eq_nil_of_le hlen]

/-- `read` is that of the `io` module, once it has the size. -/
theorem read_eq (f : BytesIO) (n : Option Int) :
    ((f.read n).1, (f.read n).2.rest) = Io.readSize f.rest n := by
  cases n with
  | none =>
    have hnone : f.read none = f.read (some f.data.length) := f.read_of_neg (by decide : -1 < 0)
    rw [hnone, read_all, Io.readSize]
  | some n =>
    rw [Io.readSize]
    split
    · rename_i hn
      rw [f.read_of_neg hn, read_all]
    · rename_i hn
      obtain ⟨k, rfl⟩ := Int.eq_ofNat_of_zero_le (Int.not_lt.mp hn)
      exact f.read_natCast k

/-- `readline` is that of the `io` module where a line ends. -/
theorem readline_of_mem (f : BytesIO) (h : 0x0A ∈ f.rest) :
    (f.readline.1, f.readline.2.rest) = Io.readline f.rest := by
  rcases hcut : Framing.cut 0x0A f.rest with _ | ⟨line, r⟩
  · exact absurd h (Framing.cut_eq_none_iff.mp hcut)
  · obtain ⟨hline, hrest⟩ := Framing.cut_eq_some_iff.mp hcut
    have hfind : find 0x0A f.rest = line.length := by rw [hrest, find_append hline]
    have hn : ¬ (line.length : Int) + 1 < 0 := by omega
    have htake : f.rest.take (line.length + 1) = Framing.terminate 0x0A line := by
      rw [hrest, Framing.terminate, List.take_length_add_append]
      rfl
    have hdrop : f.rest.drop (line.length + 1) = r := by
      rw [hrest, List.drop_length_add_append]
      rfl
    calc (f.readline.1, f.readline.2.rest)
        = Io.readSize f.rest (some (find 0x0A f.rest + 1)) := read_eq f _
      _ = (f.rest.take (line.length + 1), f.rest.drop (line.length + 1)) := by
        rw [hfind, Io.readSize, if_neg hn]
        rfl
      _ = Io.readline f.rest := by
        rw [htake, hdrop, Io.readline, hcut]

/-- Where no line ends, `readline` reads nothing. -/
theorem readline_of_notMem (f : BytesIO) (h : 0x0A ∉ f.rest) :
    (f.readline.1, f.readline.2.rest) = ([], f.rest) := by
  calc (f.readline.1, f.readline.2.rest)
      = Io.readSize f.rest (some (find 0x0A f.rest + 1)) := read_eq f _
    _ = ([], f.rest) := by rw [find_of_notMem h]; rfl

end BytesIO

theorem Io.readline_of_notMem {rest : Bytes} (h : 0x0A ∉ rest) : readline rest = (rest, []) := by
  rw [readline, Framing.cut_eq_none_iff.mpr h]

theorem Io.read_of_fits {bits : ℕ} {n : Option Int} (h : ∀ i ∈ n, FitsSsize bits i)
    (rest : Bytes) : read bits rest n = (readSize rest n).map .ok id := if_pos h

theorem Io.read_of_not_fits {bits : ℕ} {n : Option Int} (h : ¬ ∀ i ∈ n, FitsSsize bits i)
    (rest : Bytes) : read bits rest n = (.error .overflowError, rest) := if_neg h

/-! ## A run of calls -/

variable {bits : ℕ}

/-- One call gives the same result exactly when it does not ask for more than a `Py_ssize_t`, nor
for a line that does not end. -/
theorem call_fst_iff (f : BytesIO) (c : FileCall) :
    (f.call c).1 = (Io.call bits f.rest c).1 ↔ c.Ends bits f := by
  cases c with
  | read n =>
    by_cases h : ∀ i ∈ n, FitsSsize bits i
    · have hread : (f.read n).1 = (Io.readSize f.rest n).1 := congrArg Prod.fst (f.read_eq n)
      refine iff_of_true ?_ h
      rw [Io.call, Io.read_of_fits h, BytesIO.call, Prod.map_fst, Prod.map_fst, hread]
    · refine iff_of_false ?_ h
      rw [Io.call, Io.read_of_not_fits h]
      exact nofun
  | readline =>
    have hok : (f.call .readline).1 = (Io.call bits f.rest .readline).1 ↔
        f.readline.1 = (Io.readline f.rest).1 := iff_of_eq (Except.ok.injEq _ _)
    rw [hok]
    by_cases h : 0x0A ∈ f.rest
    · exact iff_of_true (congrArg Prod.fst (f.readline_of_mem h)) (.inr h)
    · have hf : f.readline.1 = [] := congrArg Prod.fst (f.readline_of_notMem h)
      have hio : (Io.readline f.rest).1 = f.rest := by rw [Io.readline_of_notMem h]
      rw [hf, hio, eq_comm]
      exact (or_iff_left h).symm

/-- And it leaves the same to be read. -/
theorem call_rest {f : BytesIO} {c : FileCall} (h : c.Ends bits f) :
    (f.call c).2.rest = (Io.call bits f.rest c).2 := by
  cases c with
  | read n =>
    rw [Io.call, Io.read_of_fits h]
    exact congrArg Prod.snd (f.read_eq n)
  | readline =>
    by_cases hmem : 0x0A ∈ f.rest
    · exact congrArg Prod.snd (f.readline_of_mem hmem)
    · have hrest : f.rest = [] := h.resolve_right hmem
      have hf : f.readline.2.rest = f.rest := congrArg Prod.snd (f.readline_of_notMem hmem)
      have hio : (Io.readline f.rest).2 = [] := by rw [Io.readline_of_notMem hmem]
      change f.readline.2.rest = (Io.readline f.rest).2
      rw [hf, hio, hrest]

theorem outputs_eq_iff (f : BytesIO) (calls : List FileCall) :
    outputs BytesIO.call f calls = outputs (Io.call bits) f.rest calls ↔
      Each (fun f c ↦ (f.call c).2) (FileCall.Ends bits) f calls := by
  refine outputs_eq_iff_each (R := fun f rest ↦ f.rest = rest) ?_ ?_ rfl calls
  · rintro f _ c rfl
    exact call_fst_iff f c
  · rintro f _ c rfl h
    exact call_rest h

/-! ## All lines -/

theorem allLines_of_notMem {data : Bytes} (h : 0x0A ∉ data) :
    allLines data = if data = [] then [] else [data] := by
  rw [allLines, Framing.lines_of_notMem h, Framing.tail_of_notMem h, List.map_nil, List.nil_append]

theorem allLines_append {line : Bytes} (h : 0x0A ∉ line) (data : Bytes) :
    allLines (line ++ 0x0A :: data) = Framing.terminate 0x0A line :: allLines data := by
  rw [allLines, Framing.lines_append_sep h, Framing.tail_append_sep h, List.map_cons,
    List.cons_append, allLines]

/-- The lines are the data. -/
theorem flatten_allLines (data : Bytes) : (allLines data).flatten = data := by
  induction data using Framing.induction (0x0A : UInt8) with
  | rest data h =>
    rw [allLines_of_notMem h]
    split <;> simp_all
  | line p data hp ih =>
    rw [allLines_append hp, List.flatten_cons, ih, Framing.terminate, List.append_assoc]
    rfl

theorem terminate_ne_nil (line : Bytes) : Framing.terminate 0x0A line ≠ [] := by
  rw [Framing.terminate]
  exact List.append_ne_nil_of_right_ne_nil line (List.cons_ne_nil _ _)

theorem readLines_succ {σ : Type} {readline : σ → Bytes × σ} {f : σ} (h : (readline f).1 ≠ [])
    (fuel : ℕ) : readLines readline (fuel + 1) f =
      (readLines readline fuel (readline f).2).map ((readline f).1 :: ·) := by
  rw [readLines, if_neg h]

theorem readLines_succ_of_nil {σ : Type} {readline : σ → Bytes × σ} {f : σ}
    (h : (readline f).1 = []) (fuel : ℕ) : readLines readline (fuel + 1) f = some [] := by
  rw [readLines, if_pos h]

/-- The `io` module reads all lines. -/
theorem Io.readLines_eq (data : Bytes) {fuel : ℕ} (h : (allLines data).length < fuel) :
    readLines readline fuel data = some (allLines data) := by
  induction data using Framing.induction (0x0A : UInt8) generalizing fuel with
  | rest data hdata =>
    have hread : readline data = (data, []) := readline_of_notMem hdata
    rw [allLines_of_notMem hdata] at h ⊢
    obtain ⟨fuel, rfl⟩ := Nat.exists_eq_add_of_lt h
    by_cases hnil : data = []
    · rw [if_pos hnil, readLines_succ_of_nil (by rw [hread, hnil])]
    · rw [if_neg hnil, readLines_succ (by rwa [hread]), hread, List.length_singleton, Nat.add_comm,
        readLines_succ_of_nil rfl]
      rfl
  | line p data hp ih =>
    have hread : readline (p ++ 0x0A :: data) = (Framing.terminate 0x0A p, data) := by
      rw [readline, Framing.cut_append hp]
    rw [allLines_append hp, List.length_cons] at h
    obtain ⟨fuel, rfl⟩ := Nat.exists_eq_add_one_of_ne_zero (Nat.ne_zero_of_lt h)
    rw [readLines_succ (by rw [hread]; exact terminate_ne_nil p), hread,
      ih (Nat.lt_of_succ_lt_succ h), allLines_append hp]
    rfl

/-- `BytesIO` reads the lines that have a newline. -/
theorem BytesIO.readLines_eq (f : BytesIO) {fuel : ℕ}
    (h : (Framing.lines 0x0A f.rest).length < fuel) :
    readLines readline fuel f =
      some ((Framing.lines 0x0A f.rest).map (Framing.terminate 0x0A)) := by
  induction hdata : f.rest using Framing.induction (0x0A : UInt8) generalizing f fuel with
  | rest data hno =>
    have hread : f.readline.1 = [] :=
      congrArg Prod.fst (f.readline_of_notMem (by rwa [hdata]))
    obtain ⟨fuel, rfl⟩ := Nat.exists_eq_add_one_of_ne_zero (Nat.ne_zero_of_lt h)
    rw [readLines_succ_of_nil hread, Framing.lines_of_notMem hno, List.map_nil]
  | line p data hp ih =>
    have hmem : 0x0A ∈ f.rest := by rw [hdata]; exact List.mem_append_right p List.mem_cons_self
    have hread : (f.readline.1, f.readline.2.rest) = (Framing.terminate 0x0A p, data) := by
      rw [f.readline_of_mem hmem, hdata, Io.readline, Framing.cut_append hp]
    obtain ⟨hline, hrest⟩ := Prod.mk.inj hread
    rw [hdata, Framing.lines_append_sep hp, List.length_cons] at h
    obtain ⟨fuel, rfl⟩ := Nat.exists_eq_add_one_of_ne_zero (Nat.ne_zero_of_lt h)
    rw [readLines_succ (by rw [hline]; exact terminate_ne_nil p), hline,
      ih f.readline.2 (by rw [hrest]; exact Nat.lt_of_succ_lt_succ h) hrest,
      Framing.lines_append_sep hp, List.map_cons]
    rfl

theorem readLines_unique {σ : Type} {readline : σ → Bytes × σ} {f : σ} {fuel fuel' : ℕ}
    {ls ls' : List Bytes} (h : readLines readline fuel f = some ls)
    (h' : readLines readline fuel' f = some ls') : ls = ls' := by
  induction fuel generalizing f fuel' ls ls' with
  | zero => cases h
  | succ fuel ih =>
    cases fuel' with
    | zero => cases h'
    | succ fuel' =>
      rw [readLines] at h h'
      split at h
      · rename_i hnil
        rw [if_pos hnil] at h'
        exact Option.some_inj.mp (h.symm.trans h')
      · rename_i hne
        rw [if_neg hne] at h'
        obtain ⟨rest, hrest, rfl⟩ := Option.map_eq_some_iff.mp h
        obtain ⟨rest', hrest', rfl⟩ := Option.map_eq_some_iff.mp h'
        rw [ih hrest hrest']

theorem allLines_eq_iff (data : Bytes) :
    (Framing.lines 0x0A data).map (Framing.terminate 0x0A) = allLines data ↔
      Framing.tail 0x0A data = [] := by
  rw [allLines, List.self_eq_append_right]
  split <;> simp_all

/-- What `BytesIO` leaves out is what comes after the last newline. -/
theorem flatten_lines_eq_iff (data : Bytes) :
    ((Framing.lines 0x0A data).map (Framing.terminate 0x0A)).flatten = data ↔
      Framing.tail 0x0A data = [] := by
  constructor
  · intro h
    have hall := flatten_allLines data
    rw [allLines, List.flatten_append, h, List.append_right_eq_self] at hall
    split at hall <;> simp_all
  · intro h
    rw [(allLines_eq_iff data).mpr h, flatten_allLines]

/-- **The two classes give the same results exactly when no call asks for more than a `Py_ssize_t`
or for a line that does not end**, and `readline` gives all lines exactly when the data is empty or
ends in a newline. -/
theorem agrees_iff (bits : ℕ) (data : Bytes) (calls : List FileCall) :
    (outputs BytesIO.call (.init data) calls = outputs (Io.call bits) data calls ↔
      Each (fun f c ↦ (f.call c).2) (FileCall.Ends bits) (.init data) calls) ∧
    ((∃ fuel, readLines BytesIO.readline fuel (.init data) = some (allLines data)) ↔
      data = [] ∨ data.getLast? = some 0x0A) ∧
    ((∃ fuel ls, readLines BytesIO.readline fuel (.init data) = some ls ∧
      ls.flatten = data) ↔ data = [] ∨ data.getLast? = some 0x0A) := by
  have hlines : readLines BytesIO.readline _ (.init data) =
      some ((Framing.lines 0x0A data).map (Framing.terminate 0x0A)) :=
    BytesIO.readLines_eq (.init data) (Nat.lt_succ_self _)
  refine ⟨outputs_eq_iff (.init data) calls, ?_, ?_⟩
  · rw [← Framing.tail_eq_nil_iff, ← allLines_eq_iff]
    constructor
    · rintro ⟨fuel, h⟩
      exact readLines_unique hlines h
    · intro h
      rw [h] at hlines
      exact ⟨_, hlines⟩
  · rw [← Framing.tail_eq_nil_iff, ← flatten_lines_eq_iff]
    constructor
    · rintro ⟨fuel, ls, h, hflat⟩
      rwa [readLines_unique hlines h]
    · intro h
      exact ⟨_, _, hlines, h⟩

/-- A line that is the last one and has no newline is never read. -/
theorem not_agrees :
    outputs BytesIO.call (.init [0x61]) [.readline] ≠ outputs (Io.call 64) [0x61] [.readline] := by
  have hread : outputs BytesIO.call (.init [0x61]) [.readline] = [.ok []] := by decide
  have hexpected : outputs (Io.call 64) [0x61] [.readline] = [.ok [0x61]] := by decide
  rw [hread, hexpected]
  decide

end GuestAgent
