import GuestAgent.Library.CString
import GuestAgent.Library.Effect

/-!
# Programs over objects in memory

A C program works on objects: arrays on the stack, and what it asks an allocator for.  A pointer is
an object and an offset in it, and nothing keeps the offset inside.  `MemAct` are the operations of
such a program, and `Machine.handle` says what they do to a `Heap`: an access outside of its object,
or to an object that was freed, is answered with whatever is there, and goes down in `faults`.  A
program is safe if it leaves no fault behind; where it leaves one, what it computes after it says
nothing.  What is in an object when it is freed goes down in `released`.

Lengths are subject to the width of the types they are computed in.  `MemAct.int` stores a number
in a 32-bit `int` and `MemAct.size` in a 32-bit `size_t`; what does not fit, or is negative, is cut
down to what the type keeps, and is a fault as well.

The strings of C end at the first NUL.  `MemAct.scan` reads a string of bytes and `MemAct.scanWide`
one of 16-bit units, up to the NUL or to a limit.  `MemAct.ext` is for whatever else the program
does, and each allocation carries a note of what it is for.
-/

set_option autoImplicit false

namespace CHeap

open CString CString.Memory Effect Effect.Prog

/-! ## Objects -/

/-- A place in an object. -/
structure Ptr where
  object : ℕ
  offset : Int
  deriving DecidableEq, Repr

/-- The place `n` bytes further. -/
def Ptr.add (p : Ptr) (n : Int) : Ptr := ⟨p.object, p.offset + n⟩

/-- An object: what it was allocated for, its size, how many of its bytes may be read, and its
bytes, with what is around it in memory. -/
structure Object (O : Type) where
  owner : O
  size : ℕ
  readable : ℕ
  data : Memory
  live : Bool

/-- What a program must not do. -/
inductive Fault where
  /-- Read `n` bytes from `p` that are not all part of an object. -/
  | read (p : Ptr) (n : ℕ)
  /-- Write `n` bytes. -/
  | write (p : Ptr) (n : ℕ)
  /-- Compute a length its type does not have. -/
  | length (x : Int)
  deriving DecidableEq, Repr

/-- An object that was freed, with its bytes. -/
structure Released (O : Type) where
  owner : O
  bytes : List UInt8

structure Heap (O : Type) where
  object : ℕ → Option (Object O)
  /-- The number of the next object. -/
  next : ℕ
  /-- How many allocations have been tried. -/
  attempts : ℕ
  faults : List Fault
  released : List (Released O)

variable {O : Type}

def Heap.empty : Heap O := ⟨fun _ ↦ none, 0, 0, [], []⟩

/-- The objects with number `i` replaced. -/
def Heap.set (s : Heap O) (i : ℕ) (x : Object O) : Heap O :=
  { s with object := Function.update s.object i (some x) }

/-- The objects after `f` was done to number `i`. -/
def Heap.modify (s : Heap O) (i : ℕ) (f : Object O → Object O) : Heap O :=
  match s.object i with
  | some x => s.set i (f x)
  | none => s

/-- One more object. -/
def Heap.push (s : Heap O) (x : Object O) : Heap O :=
  { s.set s.next x with next := s.next + 1 }

/-- What is in object `i` and around it. -/
def Heap.data (s : Heap O) (i : ℕ) : Memory :=
  match s.object i with
  | some x => x.data
  | none => fun _ ↦ 0

/-- `n` bytes from `p` lie in the first `k` bytes of a live object. -/
def Object.within (x : Object O) (p : Ptr) (n k : ℕ) : Bool :=
  x.live && 0 ≤ p.offset && p.offset + n ≤ k

/-- `n` bytes from `p` may be read. -/
def Heap.canRead (s : Heap O) (p : Ptr) (n : ℕ) : Bool :=
  n == 0 || (s.object p.object).any fun x ↦ x.within p n x.readable

/-- `n` bytes from `p` may be written. -/
def Heap.canWrite (s : Heap O) (p : Ptr) (n : ℕ) : Bool :=
  n == 0 || (s.object p.object).any fun x ↦ x.within p n x.size

def Heap.fault (s : Heap O) (ok : Bool) (f : Fault) : Heap O :=
  if ok then s else { s with faults := s.faults ++ [f] }

/-! ## Operations -/

/-- The operations of a program, with its own ones, `X`. -/
inductive MemAct (O X : Type) where
  | load (p : Ptr) (n : ℕ)
  | store (p : Ptr) (bs : List UInt8)
  /-- Read a string of at most `limit` bytes. -/
  | scan (p : Ptr) (limit : ℕ)
  /-- Read a string of at most `limit` units. -/
  | scanWide (p : Ptr) (limit : ℕ)
  /-- Allocate `size` bytes, which are zero if `zeroed`. -/
  | alloc (owner : O) (zeroed : Bool) (size : ℕ)
  | free (p : Ptr)
  /-- Store a number in an `int`. -/
  | int (x : Int)
  /-- Store a number in a `size_t`. -/
  | size (x : Int)
  | ext (x : X)

/-- What an operation answers. -/
@[reducible] def MemAct.Resp {X : Type} (RX : X → Type) : MemAct O X → Type
  | load _ _ | scan _ _ => List UInt8
  | scanWide _ _ => List UInt16
  | alloc _ _ _ => Option Ptr
  | int _ => Int
  | size _ => ℕ
  | store _ _ | free _ => Unit
  | ext x => RX x

/-- The objects, and the rest of the state of a program. -/
structure MState (O τ : Type) where
  heap : Heap O
  rest : τ

/-- What a program runs on: an allocator, what is in memory before a program writes to it, and what
its own operations do. -/
structure Machine (O : Type) {X : Type} (RX : X → Type) (τ : Type) where
  /-- Does the `n`-th allocation succeed, for this many bytes? -/
  allocates : ℕ → ℕ → Bool
  /-- What is around the object with this number, and in it if it is not zeroed. -/
  garbage : ℕ → Memory
  ext : (x : X) → τ → RX x × τ

/-- A new object. -/
def Object.new (garbage : Memory) (owner : O) (zeroed : Bool) (size : ℕ) : Object O where
  owner
  size
  readable := size
  data := if zeroed then garbage.write 0 (List.replicate size 0) else garbage
  live := true

variable {X τ : Type} {RX : X → Type}

/-- Answer an operation. -/
def Machine.handle (m : Machine O RX τ) :
    (a : MemAct O X) → MState O τ → MemAct.Resp RX a × MState O τ
  | .load p n, s =>
    (bytesAt (s.heap.data p.object) p.offset n,
      { s with heap := s.heap.fault (s.heap.canRead p n) (.read p n) })
  | .store p bs, s =>
    ((), { s with
      heap := (s.heap.fault (s.heap.canWrite p bs.length) (.write p bs.length)).modify p.object
        fun x ↦ { x with data := x.data.write p.offset bs } })
  | .scan p limit, s =>
    let str := strndup (s.heap.data p.object) p.offset limit
    let n := min (str.length + 1) limit
    (str, { s with heap := s.heap.fault (s.heap.canRead p n) (.read p n) })
  | .scanWide p limit, s =>
    let str := wcsndup (s.heap.data p.object) p.offset limit
    let n := 2 * min (str.length + 1) limit
    (str, { s with heap := s.heap.fault (s.heap.canRead p n) (.read p n) })
  | .alloc owner zeroed size, s =>
    let heap := { s.heap with attempts := s.heap.attempts + 1 }
    if m.allocates s.heap.attempts size then
      (some ⟨heap.next, 0⟩,
        { s with heap := heap.push (.new (m.garbage heap.next) owner zeroed size) })
    else (none, { s with heap })
  | .free p, s =>
    match s.heap.object p.object with
    | some x =>
      ((), { s with heap := { s.heap.set p.object { x with live := false } with
        released := s.heap.released ++ [⟨x.owner, bytesAt x.data 0 x.size⟩] } })
    | none => ((), s)
  | .int x, s =>
    (toInt32 x, { s with heap := s.heap.fault (0 ≤ x && x < 2 ^ 31) (.length x) })
  | .size x, s =>
    ((x % 2 ^ 32).toNat, { s with heap := s.heap.fault (0 ≤ x && x < 2 ^ 32) (.length x) })
  | .ext x, s => ((m.ext x s.rest).1, { s with rest := (m.ext x s.rest).2 })

/-- A program over memory. -/
abbrev MemProg (O : Type) {X : Type} (RX : X → Type) (ε α : Type) : Type :=
  Prog (A := MemAct O X) (MemAct.Resp RX) ε α

variable {ε α : Type}

def load (p : Ptr) (n : ℕ) : MemProg O RX ε (List UInt8) := perform (MemAct.load p n)

def store (p : Ptr) (bs : List UInt8) : MemProg O RX ε Unit := perform (MemAct.store p bs)

def scan (p : Ptr) (limit : ℕ) : MemProg O RX ε (List UInt8) := perform (MemAct.scan p limit)

def scanWide (p : Ptr) (limit : ℕ) : MemProg O RX ε (List UInt16) :=
  perform (MemAct.scanWide p limit)

def alloc (owner : O) (zeroed : Bool) (size : ℕ) : MemProg O RX ε (Option Ptr) :=
  perform (MemAct.alloc owner zeroed size)

def free (p : Ptr) : MemProg O RX ε Unit := perform (MemAct.free p)

def toInt (x : Int) : MemProg O RX ε Int := perform (MemAct.int x)

def toSizeT (x : Int) : MemProg O RX ε ℕ := perform (MemAct.size x)

def ext (x : X) : MemProg O RX ε (RX x) := perform (MemAct.ext x)

/-! ## What stays whatever a program does -/

section Heap

variable {s t : Heap O} {x y : Object O} {i j : ℕ}

@[simp] theorem Heap.set_object_self : (s.set i x).object i = some x := Function.update_self ..

theorem Heap.set_object_of_ne (h : j ≠ i) : (s.set i x).object j = s.object j :=
  Function.update_of_ne h ..

@[simp] theorem Heap.set_next : (s.set i x).next = s.next := rfl

@[simp] theorem Heap.set_attempts : (s.set i x).attempts = s.attempts := rfl

@[simp] theorem Heap.set_faults : (s.set i x).faults = s.faults := rfl

@[simp] theorem Heap.set_released : (s.set i x).released = s.released := rfl

theorem Heap.modify_of_object {f : Object O → Object O} (h : s.object i = some x) :
    s.modify i f = s.set i (f x) := by
  rw [modify, h]

theorem Heap.data_of_object (h : s.object i = some x) : s.data i = x.data := by
  rw [data, h]

theorem Heap.modify_faults (f : Object O → Object O) : (s.modify i f).faults = s.faults := by
  rw [modify]
  split <;> rfl

theorem Heap.faults_fault (ok : Bool) (f : Fault) : s.faults <+: (s.fault ok f).faults := by
  rw [fault]
  split
  · exact List.prefix_rfl
  · exact List.prefix_append ..

@[simp] theorem Heap.object_fault (ok : Bool) (f : Fault) : (s.fault ok f).object = s.object := by
  rw [fault]
  split <;> rfl

@[simp] theorem Heap.next_fault (ok : Bool) (f : Fault) : (s.fault ok f).next = s.next := by
  rw [fault]
  split <;> rfl

@[simp] theorem Heap.attempts_fault (ok : Bool) (f : Fault) :
    (s.fault ok f).attempts = s.attempts := by
  rw [fault]
  split <;> rfl

@[simp] theorem Heap.released_fault (ok : Bool) (f : Fault) :
    (s.fault ok f).released = s.released := by
  rw [fault]
  split <;> rfl

@[simp] theorem Heap.data_fault (ok : Bool) (f : Fault) : (s.fault ok f).data = s.data := by
  funext i
  rw [data, data, object_fault]

end Heap

variable {m : Machine O RX τ}

/-- No operation takes a fault back. -/
theorem faults_handle (a : MemAct O X) (s : MState O τ) :
    s.heap.faults <+: (m.handle a s).2.heap.faults := by
  cases a with
  | load | scan | scanWide | int | size => exact Heap.faults_fault ..
  | store p bs =>
    simp only [Machine.handle]
    rw [Heap.modify_faults]
    exact Heap.faults_fault ..
  | alloc owner zeroed size =>
    simp only [Machine.handle]
    split <;> exact List.prefix_rfl
  | free p =>
    simp only [Machine.handle]
    split <;> exact List.prefix_rfl
  | ext x => exact List.prefix_rfl

/-- **A fault stays.** -/
theorem faults_run (p : MemProg O RX ε α) (s : MState O τ) :
    s.heap.faults <+: (p.run m.handle s).2.heap.faults := by
  induction p generalizing s with
  | ret x => exact List.prefix_rfl
  | raise e => exact List.prefix_rfl
  | call a k ih => exact (faults_handle a s).trans (ih _ _)

/-- Once there is a fault, there is one at the end. -/
theorem faults_run_ne_nil {p : MemProg O RX ε α} {s : MState O τ}
    (h : s.heap.faults ≠ []) : (p.run m.handle s).2.heap.faults ≠ [] := by
  intro hnil
  have hprefix := faults_run (m := m) p s
  rw [hnil, List.prefix_nil] at hprefix
  exact h hprefix

/-! ## What an operation does where it may -/

section Operations

variable {s : MState O τ} {x : Object O} {p : Ptr} {n : ℕ} {bs : List UInt8}
variable {v w : List UInt16}

theorem Object.within_of_bounds (hlive : x.live = true) (hlo : 0 ≤ p.offset) {k : ℕ}
    (hhi : p.offset + n ≤ k) : x.within p n k = true := by
  simp [within, hlive, hlo, hhi]

/-- Part of what lies in an object lies in it. -/
theorem Object.within_of_le {k l : ℕ} (h : x.within p n k = true) (hl : l ≤ n) :
    x.within p l k = true := by
  simp only [within, Bool.and_eq_true, decide_eq_true_eq] at h ⊢
  exact ⟨h.1, by omega⟩

theorem Heap.canRead_of_object {s : Heap O} (hx : s.object p.object = some x)
    (h : x.within p n x.readable = true) : s.canRead p n = true := by
  simp [canRead, hx, h]

theorem Heap.canWrite_of_object {s : Heap O} (hx : s.object p.object = some x)
    (h : x.within p n x.size = true) : s.canWrite p n = true := by
  simp [canWrite, hx, h]

/-- A read gives what is there, in the object or not. -/
theorem run_load_data :
    (load p n : MemProg O RX ε _).run m.handle s =
      (.ok (bytesAt (s.heap.data p.object) p.offset n),
        { s with heap := s.heap.fault (s.heap.canRead p n) (.read p n) }) := rfl

theorem run_scan_data :
    (scan p n : MemProg O RX ε _).run m.handle s =
      (.ok (strndup (s.heap.data p.object) p.offset n),
        { s with
          heap := s.heap.fault
            (s.heap.canRead p (min ((strndup (s.heap.data p.object) p.offset n).length + 1) n))
            (.read p (min ((strndup (s.heap.data p.object) p.offset n).length + 1) n)) }) := rfl

/-- A write changes what is there, in the object or around it. -/
theorem run_store_data (hx : s.heap.object p.object = some x) :
    (store p bs : MemProg O RX ε _).run m.handle s =
      (.ok (), { s with
        heap := (s.heap.fault (s.heap.canWrite p bs.length) (.write p bs.length)).set p.object
          { x with data := x.data.write p.offset bs } }) := by
  rw [store, run_perform]
  simp only [Machine.handle]
  rw [Heap.modify_of_object (by rw [Heap.object_fault]; exact hx)]

theorem run_load (hx : s.heap.object p.object = some x) (h : x.within p n x.readable = true) :
    (load p n : MemProg O RX ε _).run m.handle s =
      (.ok (bytesAt x.data p.offset n), s) := by
  rw [load, run_perform]
  simp only [Machine.handle, Heap.data_of_object hx, Heap.canRead_of_object hx h, Heap.fault,
    if_true]

theorem run_store (hx : s.heap.object p.object = some x)
    (h : x.within p bs.length x.size = true) :
    (store p bs : MemProg O RX ε _).run m.handle s =
      (.ok (), { s with
        heap := s.heap.set p.object { x with data := x.data.write p.offset bs } }) := by
  rw [store, run_perform]
  simp only [Machine.handle, Heap.canWrite_of_object hx h, Heap.fault, if_true,
    Heap.modify_of_object hx]

/-- A string with its NUL in the object is read up to it. -/
theorem run_scan (hx : s.heap.object p.object = some x) (hbs : x.data.Holds p.offset bs)
    (h : x.within p bs.length x.readable = true) (hnul : 0 ∈ bs) (hn : bs.length ≤ n) :
    (scan p n : MemProg O RX ε _).run m.handle s =
      (.ok (bs.takeWhile (· ≠ 0)), s) := by
  have hlt := length_takeWhile_lt hnul
  have hread : x.within p (min ((bs.takeWhile (· ≠ 0)).length + 1) n) x.readable = true :=
    Object.within_of_le h (by omega)
  rw [scan, run_perform]
  simp only [Machine.handle, Heap.data_of_object hx, strndup_of_holds_nul hbs hnul hn,
    Heap.canRead_of_object hx hread, Heap.fault, if_true]

/-- A string may be read where all of it could lie in the object. -/
theorem run_scan_of_within (hx : s.heap.object p.object = some x)
    (h : x.within p n x.readable = true) :
    (scan p n : MemProg O RX ε _).run m.handle s = (.ok (strndup x.data p.offset n), s) := by
  have hread := Object.within_of_le h
    (show min ((strndup x.data p.offset n).length + 1) n ≤ n from min_le_right ..)
  rw [scan, run_perform]
  simp only [Machine.handle, Heap.data_of_object hx, Heap.canRead_of_object hx hread, Heap.fault,
    if_true]

theorem run_scanWide (hx : s.heap.object p.object = some x)
    (hv : x.data.Holds p.offset (wideBytes v))
    (h : x.within p (2 * v.length) x.readable = true) (hnul : 0 ∈ v) (hn : v.length ≤ n) :
    (scanWide p n : MemProg O RX ε _).run m.handle s =
      (.ok (v.takeWhile (· ≠ 0)), s) := by
  have hlt := length_takeWhile_lt hnul
  have hread : x.within p (2 * min ((v.takeWhile (· ≠ 0)).length + 1) n) x.readable = true :=
    Object.within_of_le h (by omega)
  rw [scanWide, run_perform]
  simp only [Machine.handle, Heap.data_of_object hx, wcsndup_of_holds hv hnul hn,
    Heap.canRead_of_object hx hread, Heap.fault, if_true]

/-- The heap after an allocation was tried. -/
def Heap.tried (s : Heap O) : Heap O := { s with attempts := s.attempts + 1 }

theorem run_alloc (owner : O) (zeroed : Bool)
    (h : m.allocates s.heap.attempts n = true) :
    (alloc owner zeroed n : MemProg O RX ε _).run m.handle s =
      (.ok (some ⟨s.heap.next, 0⟩),
        { s with heap := s.heap.tried.push (.new (m.garbage s.heap.next) owner zeroed n) }) := by
  rw [alloc, run_perform]
  simp only [Machine.handle, h, if_true]
  rfl

theorem run_alloc_fail (owner : O) (zeroed : Bool)
    (h : m.allocates s.heap.attempts n = false) :
    (alloc owner zeroed n : MemProg O RX ε _).run m.handle s =
      (.ok none, { s with heap := s.heap.tried }) := by
  rw [alloc, run_perform]
  simp only [Machine.handle, h]
  rfl

/-- The heap after object `i`, which was `x`, has been freed. -/
def Heap.release (s : Heap O) (i : ℕ) (x : Object O) : Heap O :=
  { s.set i { x with live := false } with
    released := s.released ++ [⟨x.owner, bytesAt x.data 0 x.size⟩] }

theorem run_free (hx : s.heap.object p.object = some x) :
    (free p : MemProg O RX ε _).run m.handle s =
      (.ok (), { s with heap := s.heap.release p.object x }) := by
  rw [free, run_perform]
  simp only [Machine.handle, hx]
  rfl

theorem run_toInt {z : Int} (hlo : 0 ≤ z) (hhi : z < 2 ^ 31) :
    (toInt z : MemProg O RX ε _).run m.handle s = (.ok z, s) := by
  rw [toInt, run_perform]
  have hok : (0 ≤ z && z < 2 ^ 31) = true := by simpa [hlo] using hhi
  simp only [Machine.handle, toInt32_of_bounds (show -2 ^ 31 ≤ z by omega) hhi, hok, Heap.fault,
    if_true]

theorem run_toSizeT {z : Int} (hlo : 0 ≤ z) (hhi : z < 2 ^ 32) :
    (toSizeT z : MemProg O RX ε _).run m.handle s = (.ok z.toNat, s) := by
  rw [toSizeT, run_perform]
  have hok : (0 ≤ z && z < 2 ^ 32) = true := by simpa [hlo] using hhi
  simp only [Machine.handle, Int.emod_eq_of_lt hlo hhi, hok, Heap.fault, if_true]

/-- A number that is no length leaves a fault. -/
theorem faults_run_toInt {z : Int} (h : ¬ (0 ≤ z ∧ z < 2 ^ 31)) {f : Int → MemProg O RX ε α} :
    ((toInt z >>= f).run m.handle s).2.heap.faults ≠ [] := by
  rw [toInt, run_bind, run_perform]
  refine faults_run_ne_nil ?_
  simp only [Machine.handle]
  rw [Heap.fault, if_neg (by simpa using h)]
  simp

/-- A read past the end leaves a fault. -/
theorem faults_run_load (h : s.heap.canRead p n = false)
    {f : List UInt8 → MemProg O RX ε α} :
    ((load p n >>= f).run m.handle s).2.heap.faults ≠ [] := by
  rw [run_bind_ok run_load_data]
  refine faults_run_ne_nil ?_
  rw [h, Heap.fault, if_neg (by simp)]
  simp

@[simp] theorem run_ext (z : X) :
    (ext z : MemProg O RX ε _).run m.handle s =
      (.ok (m.ext z s.rest).1, { s with rest := (m.ext z s.rest).2 }) := rfl

end Operations

/-! ## What an operation does to what is known of an object -/

/-- Object `i` is there for `o`, has `size` bytes, and what may be read of it is `bs`. -/
def Heap.Holds (s : Heap O) (i : ℕ) (o : O) (size : ℕ) (bs : List UInt8) : Prop :=
  ∃ d : Memory, s.object i = some ⟨o, size, bs.length, d, true⟩ ∧ bs.length ≤ size ∧ d.Holds 0 bs

/-- Object `i` is there for `o`, and `bs` is all of it. -/
abbrev Heap.Full (s : Heap O) (i : ℕ) (o : O) (bs : List UInt8) : Prop :=
  s.Holds i o bs.length bs

/-- `t` is `s` but for object `i`. -/
structure SameBut (i : ℕ) (s t : MState O τ) : Prop where
  object : ∀ j, j ≠ i → t.heap.object j = s.heap.object j
  next : t.heap.next = s.heap.next
  attempts : t.heap.attempts = s.heap.attempts
  faults : t.heap.faults = s.heap.faults
  rest : t.rest = s.rest

section Known

variable {s t : MState O τ} {i j size n : ℕ} {o : O}
variable {as bs cs : List UInt8} {v : List UInt16} {off : Int}

theorem SameBut.holds (h : SameBut i s t) (hj : s.heap.Holds j o size bs) (hne : j ≠ i) :
    t.heap.Holds j o size bs := by
  rw [Heap.Holds, h.object j hne]
  exact hj

theorem SameBut.trans {u : MState O τ} (h : SameBut i s t) (h' : SameBut i t u) :
    SameBut i s u where
  object j hj := (h'.object j hj).trans (h.object j hj)
  next := h'.next.trans h.next
  attempts := h'.attempts.trans h.attempts
  faults := h'.faults.trans h.faults
  rest := h'.rest.trans h.rest

theorem Heap.Holds.full {s : Heap O} (h : s.Holds i o size bs) (hsize : bs.length = size) :
    s.Full i o bs := by
  rwa [Heap.Full, hsize]

/-- Part of an object is read. -/
theorem Heap.Holds.run_load (h : s.heap.Holds i o size (as ++ (bs ++ cs)))
    (hoff : off = as.length) :
    (load ⟨i, off⟩ bs.length : MemProg O RX ε _).run m.handle s = (.ok bs, s) := by
  subst hoff
  obtain ⟨d, hd, -, hbytes⟩ := h
  have hwithin : Object.within ⟨o, size, (as ++ (bs ++ cs)).length, d, true⟩ ⟨i, as.length⟩
      bs.length (as ++ (bs ++ cs)).length = true := by
    refine Object.within_of_bounds rfl (by simp) ?_
    simp only [List.length_append]
    omega
  have hpart := hbytes.right.left
  rw [zero_add] at hpart
  rw [CHeap.run_load hd hwithin, bytesAt_of_holds hpart]

/-- A string in an object is read, if its NUL is in the object too. -/
theorem Heap.Holds.run_scan (h : s.heap.Holds i o size (as ++ bs)) (hoff : off = as.length)
    (hnul : 0 ∈ bs) (hn : bs.length ≤ n) :
    (scan ⟨i, off⟩ n : MemProg O RX ε _).run m.handle s =
      (.ok (bs.takeWhile (· ≠ 0)), s) := by
  subst hoff
  obtain ⟨d, hd, -, hbytes⟩ := h
  have hpart := hbytes.right
  rw [zero_add] at hpart
  refine CHeap.run_scan hd hpart (Object.within_of_bounds rfl (by simp) ?_) hnul hn
  simp only [List.length_append]
  omega

theorem Heap.Holds.run_scanWide (h : s.heap.Holds i o size (as ++ wideBytes v))
    (hoff : off = as.length) (hnul : 0 ∈ v) (hn : v.length ≤ n) :
    (scanWide ⟨i, off⟩ n : MemProg O RX ε _).run m.handle s =
      (.ok (v.takeWhile (· ≠ 0)), s) := by
  subst hoff
  obtain ⟨d, hd, -, hbytes⟩ := h
  have hpart := hbytes.right
  rw [zero_add] at hpart
  refine CHeap.run_scanWide hd hpart (Object.within_of_bounds rfl (by simp) ?_) hnul hn
  simp only [List.length_append, length_wideBytes]
  omega

/-- Part of an object is overwritten. -/
theorem Heap.Holds.exists_run_store (h : s.heap.Holds i o size (as ++ (bs ++ cs)))
    (hoff : off = as.length) {bs' : List UInt8} (hlen : bs'.length = bs.length) :
    ∃ t, (store ⟨i, off⟩ bs' : MemProg O RX ε _).run m.handle s = (.ok (), t) ∧
      t.heap.Holds i o size (as ++ (bs' ++ cs)) ∧ SameBut i s t ∧
        t.heap.released = s.heap.released := by
  subst hoff
  obtain ⟨d, hd, hsize, hbytes⟩ := h
  have hlen' : (as ++ (bs' ++ cs)).length = (as ++ (bs ++ cs)).length := by
    simp only [List.length_append, hlen]
  have hwithin : Object.within ⟨o, size, (as ++ (bs ++ cs)).length, d, true⟩ ⟨i, as.length⟩
      bs'.length size = true := by
    refine Object.within_of_bounds rfl (by simp) ?_
    simp only [List.length_append] at hsize ⊢
    omega
  refine ⟨_, CHeap.run_store hd hwithin,
    ⟨_, by rw [hlen', Heap.set_object_self], hlen'.trans_le hsize, ?_⟩,
    ⟨fun j hj ↦ Heap.set_object_of_ne hj, rfl, rfl, rfl, rfl⟩, rfl⟩
  have hwrite := hbytes.write hlen
  rwa [zero_add] at hwrite

/-- What a new object is like. -/
theorem exists_run_alloc (zeroed : Bool) (h : m.allocates s.heap.attempts n = true) :
    ∃ t bs, (alloc o zeroed n : MemProg O RX ε _).run m.handle s =
        (.ok (some ⟨s.heap.next, 0⟩), t) ∧
      t.heap.Full s.heap.next o bs ∧ bs.length = n ∧ (zeroed = true → bs = List.replicate n 0) ∧
      (∀ j, j ≠ s.heap.next → t.heap.object j = s.heap.object j) ∧
      t.heap.next = s.heap.next + 1 ∧ t.heap.attempts = s.heap.attempts + 1 ∧
      t.heap.faults = s.heap.faults ∧ t.heap.released = s.heap.released ∧ t.rest = s.rest := by
  have hobj := Heap.set_object_self (s := s.heap.tried) (i := s.heap.next)
    (x := .new (m.garbage s.heap.next) o zeroed n)
  cases zeroed with
  | false =>
    have hlen := length_bytesAt (m.garbage s.heap.next) 0 n
    refine ⟨_, bytesAt (m.garbage s.heap.next) 0 n, run_alloc o false h, ?_, hlen, by simp,
      fun j hj ↦ Heap.set_object_of_ne hj, rfl, rfl, rfl, rfl, rfl⟩
    refine ⟨m.garbage s.heap.next, ?_, le_rfl, holds_bytesAt _ _ _⟩
    rw [hlen]
    exact hobj
  | true =>
    refine ⟨_, List.replicate n 0, run_alloc o true h, ?_, List.length_replicate, fun _ ↦ rfl,
      fun j hj ↦ Heap.set_object_of_ne hj, rfl, rfl, rfl, rfl, rfl⟩
    refine ⟨(m.garbage s.heap.next).write 0 (List.replicate n 0), ?_, le_rfl,
      Memory.holds_write _ _ _⟩
    rw [List.length_replicate]
    exact hobj

/-- A new object, of zeros. -/
theorem exists_run_alloc_zeroed (h : m.allocates s.heap.attempts n = true) :
    ∃ t, (alloc o true n : MemProg O RX ε _).run m.handle s = (.ok (some ⟨s.heap.next, 0⟩), t) ∧
      t.heap.Full s.heap.next o (List.replicate n 0) ∧
      (∀ j, j ≠ s.heap.next → t.heap.object j = s.heap.object j) ∧
      t.heap.next = s.heap.next + 1 ∧ t.heap.attempts = s.heap.attempts + 1 ∧
      t.heap.faults = s.heap.faults ∧ t.heap.released = s.heap.released ∧ t.rest = s.rest := by
  obtain ⟨t, bs, hrun, hfull, -, hzero, ht⟩ := exists_run_alloc (o := o) (ε := ε) true h
  rw [hzero rfl] at hfull
  exact ⟨t, hrun, hfull, ht⟩

/-- An object is freed with what is in it. -/
theorem Heap.Holds.exists_run_free (h : s.heap.Full i o bs) :
    ∃ t, (free ⟨i, 0⟩ : MemProg O RX ε _).run m.handle s = (.ok (), t) ∧ SameBut i s t ∧
      t.heap.released = s.heap.released ++ [⟨o, bs⟩] := by
  obtain ⟨d, hd, -, hbytes⟩ := h
  refine ⟨_, run_free hd, ⟨fun j hj ↦ Heap.set_object_of_ne hj, rfl, rfl, rfl, rfl⟩, ?_⟩
  rw [Heap.release]
  simp only [bytesAt_of_holds hbytes]

end Known

end CHeap
