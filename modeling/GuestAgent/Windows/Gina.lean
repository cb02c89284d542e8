import GuestAgent.Credentials.Block
import GuestAgent.Windows.MultiByte

/-!
# The GINA's side of the credentials channel

On older systems the consumer of the block is a thread of the GINA, `ThreadFunc`.  It reads one
message of at most 1024 bytes, puts a NUL after it, and copies the user name and the password into
arrays of their own, where they are converted and posted to the dialog.

The function takes the password to be as long as the message without the length of the user name
and one byte more.  The agent's blocks have four bytes of length and one pad byte, so that the copy
goes on for three bytes after the block (`not_safe_of_allocates`).  The copy is a string, and its
NUL, the pad byte, comes before that; nothing that is posted depends on what was there, as long as
it is still in the array.  `inBounds_iff` says that it is for blocks of at most 1021 bytes.  What
happens after an access outside of the array is not for the model to say.

`login_safe_iff` says that the only logins handled without a fault are the ones for which there was
no memory, and `outcome_block` says what is posted for all the others.
-/

set_option autoImplicit false

namespace GuestAgent.Gina

open CString CHeap Effect Effect.Prog

/-- What the thread's memory is for. -/
inductive Owner where
  | chRecBuf
  | characters
  | units
  deriving DecidableEq, Repr

/-- `PostMessage` with `WM_USER + 5`: what the two strings are that the dialog is handed. -/
structure PostMessage where
  username : Wide
  password : Wide
  deriving DecidableEq, Repr

@[reducible] def PostMessage.Resp : PostMessage → Type := fun _ ↦ Unit

/-- `std::bad_alloc`, which nobody catches. -/
inductive BadAlloc where
  | badAlloc

/-- A program of the thread. -/
abbrev GinaProg (α : Type) : Type := MemProg Owner PostMessage.Resp BadAlloc α

/-- `new T[n]`, where a `T` has `size` bytes. -/
def newArray (owner : Owner) (size : ℕ) (n : Int) : GinaProg Ptr := do
  let n ← toInt n
  let bytes ← toSizeT (n * size)
  match ← alloc owner false bytes with
  | some p => return p
  | none => .raise .badAlloc

/-- `memcpy`. -/
def memcpy (dst src : Ptr) (n : Int) : GinaProg Unit := do
  let n ← toSizeT n
  let bytes ← load src n
  store dst bytes

/-- `q2ConvertLPCSTRToLPWSTR`, for a string that is not `NULL`. -/
def q2ConvertLPCSTRToLPWSTR (dec : Utf8Decoder) (pCstring : Ptr) : GinaProg Ptr := do
  let nOutputStrLen ← multiByteToWideChar dec pCstring (-1) none 0
  let pszOut ← newArray .units sizeofWchar nOutputStrLen
  let _ ← multiByteToWideChar dec pCstring (-1) (some pszOut) nOutputStrLen
  return pszOut

/-- The end of `ThreadFunc`: the copies are converted and posted.  The dialog reads the strings it
is handed. -/
def postStrings (dec : Utf8Decoder) (pstrUserName pstrPassword : Ptr) : GinaProg Unit := do
  let pwstrUserName ← q2ConvertLPCSTRToLPWSTR dec pstrUserName
  let pwstrPassword ← q2ConvertLPCSTRToLPWSTR dec pstrPassword
  free pstrUserName
  free pstrPassword
  let username ← scanWide pwstrUserName wideSpace
  let password ← scanWide pwstrPassword wideSpace
  ext ⟨username, password⟩

/-- `ThreadFunc`, from where `ReadFile` has succeeded. -/
def threadFunc (dec : Utf8Decoder) (chRecBuf : Ptr) (cbBytesRead : ℕ) : GinaProg Unit := do
  store (chRecBuf.add cbBytesRead) [0]
  let nUsernameLength ← toInt (unpackBe32 (← load chRecBuf 4))
  let nPasswordLength ← toInt (cbBytesRead - nUsernameLength - 1)
  let pstrUserName ← newArray .characters 1 (nUsernameLength + 1)
  let pstrPassword ← newArray .characters 1 (nPasswordLength + 1)
  memcpy pstrUserName (chRecBuf.add 4) nUsernameLength
  store (pstrUserName.add nUsernameLength) [0]
  memcpy pstrPassword (chRecBuf.add (4 + nUsernameLength)) nPasswordLength
  store (pstrPassword.add nPasswordLength) [0]
  postStrings dec pstrUserName pstrPassword

/-- What the thread meets: its allocator, and what is in memory. -/
structure GinaEnv where
  allocates : ℕ → ℕ → Bool
  garbage : ℕ → Memory

namespace GinaEnv

variable (env : GinaEnv)

def machine : Machine Owner PostMessage.Resp (List PostMessage) where
  allocates := env.allocates
  garbage := env.garbage
  ext x posted := ((), posted ++ [x])

/-- `PIPE_BUFSIZE`. -/
def pipeBufsize : ℕ := 1024

/-- `chRecBuf` with a message in it. -/
def chRecBuf (message : Bytes) : Object Owner where
  owner := .chRecBuf
  size := pipeBufsize
  readable := message.length
  data := (env.garbage 0).write 0 message
  live := true

def start (message : Bytes) : MState Owner (List PostMessage) :=
  ⟨Heap.empty.push (env.chRecBuf message), []⟩

/-- What comes of a message. -/
def outcome (dec : Utf8Decoder) (message : Bytes) : MState Owner (List PostMessage) :=
  ((threadFunc dec ⟨0, 0⟩ message.length).run env.machine.handle (env.start message)).2

/-- A message is handled without a fault. -/
def Safe (dec : Utf8Decoder) (message : Bytes) : Prop :=
  (env.outcome dec message).heap.faults = []

/-- A read of what is in `chRecBuf`, in the message or after it. -/
def InBuffer : Fault → Prop
  | .read p n => p.object = 0 ∧ 0 ≤ p.offset ∧ p.offset + n ≤ pipeBufsize
  | _ => False

/-- A message is handled without an access outside of an object: where more is read than the
message, it is in the array the message is in. -/
def InBounds (dec : Utf8Decoder) (message : Bytes) : Prop :=
  ∀ f ∈ (env.outcome dec message).heap.faults, InBuffer f

end GinaEnv

/-! ## The operations -/

section Operations

variable (env : GinaEnv) {s : MState Owner (List PostMessage)} {i j n : ℕ} {o : Owner}
variable {bs cs ds : Bytes}

/-- `t` is `s` but for object `i`, and for faults. -/
structure Elsewhere (i : ℕ) (s t : MState Owner (List PostMessage)) : Prop where
  object : ∀ j, j ≠ i → t.heap.object j = s.heap.object j
  next : t.heap.next = s.heap.next
  attempts : t.heap.attempts = s.heap.attempts
  rest : t.rest = s.rest

/-- `t` is `s` with one more object, which holds `bs`. -/
structure Grown (o : Owner) (bs : Bytes) (s t : MState Owner (List PostMessage)) : Prop where
  full : t.heap.Full s.heap.next o bs
  object : ∀ j, j ≠ s.heap.next → t.heap.object j = s.heap.object j
  next : t.heap.next = s.heap.next + 1
  attempts : t.heap.attempts = s.heap.attempts + 1
  faults : t.heap.faults = s.heap.faults
  rest : t.rest = s.rest

theorem run_newArray_eq (o : Owner) {size : ℕ} (hn : n < 2 ^ 31) (hsize : n * size < 2 ^ 32) :
    (newArray o size n).run env.machine.handle s =
      (alloc o false (n * size) >>= fun r ↦ match r with
        | some p => pure p
        | none => .raise .badAlloc : GinaProg Ptr).run env.machine.handle s := by
  have hmul : (n : Int) * size = (n * size : ℕ) := (Nat.cast_mul n size).symm
  rw [newArray, run_bind_ok (run_toInt (by omega) (by omega)), hmul,
    run_bind_ok (run_toSizeT (by omega) (by omega)), Int.toNat_natCast]

theorem exists_run_newArray (o : Owner) (size : ℕ) (hn : n < 2 ^ 31) (hsize : n * size < 2 ^ 32)
    (h : env.allocates s.heap.attempts (n * size) = true) :
    ∃ t bs, (newArray o size n).run env.machine.handle s = (.ok ⟨s.heap.next, 0⟩, t) ∧
      bs.length = n * size ∧ Grown o bs s t := by
  obtain ⟨t, bs, hrun, hfull, hlen, -, hobj, hnext, hatt, hfaults, -, hrest⟩ :=
    exists_run_alloc (m := env.machine) (o := o) (ε := BadAlloc) false h
  refine ⟨t, bs, ?_, hlen, hfull, hobj, hnext, hatt, hfaults, hrest⟩
  rw [run_newArray_eq env o hn hsize, run_bind_ok hrun]
  rfl

theorem run_newArray_of_fail (o : Owner) (size : ℕ) (hn : n < 2 ^ 31) (hsize : n * size < 2 ^ 32)
    (h : env.allocates s.heap.attempts (n * size) = false) :
    (newArray o size n).run env.machine.handle s =
      (.error .badAlloc, { s with heap := s.heap.tried }) := by
  have hfail := run_alloc_fail (m := env.machine) (X := PostMessage) (ε := BadAlloc) (s := s)
    o false h
  rw [run_newArray_eq env o hn hsize, run_bind_ok hfail]
  rfl

/-- What is copied is what is at the source, in an object or not. -/
theorem exists_run_memcpy (src : Ptr) (hn : n < 2 ^ 32) (hdst : s.heap.Full i o ds)
    (hlen : n ≤ ds.length) :
    ∃ t, (memcpy ⟨i, 0⟩ src n).run env.machine.handle s = (.ok (), t) ∧
      t.heap.Full i o (bytesAt (s.heap.data src.object) src.offset n ++ ds.drop n) ∧
        Elsewhere i s t ∧
        t.heap.faults = (s.heap.fault (s.heap.canRead src n) (.read src n)).faults := by
  set s' : MState Owner (List PostMessage) :=
    { s with heap := s.heap.fault (s.heap.canRead src n) (.read src n) } with hs'
  have hobj : s'.heap.object = s.heap.object := Heap.object_fault ..
  have hnext : s'.heap.next = s.heap.next := Heap.next_fault ..
  have hatt : s'.heap.attempts = s.heap.attempts := Heap.attempts_fault ..
  have hholds : s'.heap.Holds i o ds.length ([] ++ (ds.take n ++ ds.drop n)) := by
    rw [List.nil_append, List.take_append_drop, Heap.Holds, hobj]
    exact hdst
  have htake : (bytesAt (s.heap.data src.object) src.offset n).length = (ds.take n).length := by
    rw [length_bytesAt, List.length_take, min_eq_left hlen]
  obtain ⟨t, hrun, hfull, hsame, -⟩ := hholds.exists_run_store (m := env.machine)
    (ε := BadAlloc) (show (0 : Int) = ([] : Bytes).length from rfl) htake
  refine ⟨t, ?_, Heap.Holds.full hfull ?_, ⟨fun j hj ↦ ?_, hsame.next.trans hnext,
    hsame.attempts.trans hatt, hsame.rest⟩, hsame.faults⟩
  · rw [memcpy, run_bind_ok (run_toSizeT (by omega) (by omega)), Int.toNat_natCast,
      run_bind_ok run_load_data, hrun]
  · rw [List.length_append, length_bytesAt, List.length_drop]
    omega
  · rw [hsame.object j hj, hobj]

theorem exists_run_store_byte (hdst : s.heap.Full i o ds) (hlen : n < ds.length) (b : UInt8) :
    ∃ t, (store (Ptr.add ⟨i, 0⟩ n) [b] : GinaProg Unit).run env.machine.handle s = (.ok (), t) ∧
      t.heap.Full i o (ds.take n ++ b :: ds.drop (n + 1)) ∧ SameBut i s t := by
  have hsplit : ds = ds.take n ++ ([ds[n]] ++ ds.drop (n + 1)) := by
    rw [List.singleton_append, List.getElem_cons_drop, List.take_append_drop]
  have hholds : s.heap.Holds i o ds.length (ds.take n ++ ([ds[n]] ++ ds.drop (n + 1))) := by
    rw [← hsplit]
    exact hdst
  have hoff : (0 : Int) + n = (ds.take n).length := by
    rw [List.length_take, min_eq_left hlen.le, zero_add]
  obtain ⟨t, hrun, hfull, hsame, -⟩ := hholds.exists_run_store (m := env.machine)
    (ε := BadAlloc) hoff (show ([b] : Bytes).length = ([ds[n]] : Bytes).length from rfl)
  refine ⟨t, hrun, Heap.Holds.full hfull ?_, hsame⟩
  simp only [List.length_append, List.length_take, List.length_cons, List.length_drop]
  omega

theorem Elsewhere.of_sameBut {t u : MState Owner (List PostMessage)} (h : Elsewhere i s t)
    (h' : SameBut i t u) : Elsewhere i s u where
  object j hj := (h'.object j hj).trans (h.object j hj)
  next := h'.next.trans h.next
  attempts := h'.attempts.trans h.attempts
  rest := h'.rest.trans h.rest

/-- A string is copied into an array with one byte more, and a NUL is put after it. -/
theorem exists_run_copyString {β : Type} (src : Ptr) (hn : n < 2 ^ 32)
    (hdst : s.heap.Full i o ds) (hds : ds.length = n + 1)
    (hsrc : bytesAt (s.heap.data src.object) src.offset n = bs) :
    ∃ t, t.heap.Full i o (bs ++ [0]) ∧ Elsewhere i s t ∧
      t.heap.faults = (s.heap.fault (s.heap.canRead src n) (.read src n)).faults ∧
      ∀ f : GinaProg β,
        (memcpy ⟨i, 0⟩ src n >>= fun _ ↦ store (Ptr.add ⟨i, 0⟩ n) [0] >>= fun _ ↦ f).run
          env.machine.handle s = f.run env.machine.handle t := by
  have hbs : bs.length = n := by rw [← hsrc, length_bytesAt]
  obtain ⟨t, hrun, hfull, helse, hfaults⟩ := exists_run_memcpy env src hn hdst (by omega)
  rw [hsrc] at hfull
  obtain ⟨t', hrun', hfull', hsame⟩ := exists_run_store_byte env hfull (n := n)
    (by rw [List.length_append, List.length_drop]; omega) 0
  have hstring : (bs ++ ds.drop n).take n ++ 0 :: (bs ++ ds.drop n).drop (n + 1) = bs ++ [0] := by
    rw [← hbs, List.take_left, List.drop_eq_nil_of_le]
    rw [List.length_append, List.length_drop]
    omega
  rw [hstring] at hfull'
  exact ⟨t', hfull', helse.of_sameBut hsame, hsame.faults.trans hfaults,
    fun f ↦ by rw [run_bind_ok hrun, run_bind_ok hrun']⟩

/-- A copied string is converted into an array of its own. -/
theorem exists_run_q2Convert (dec : Utf8Decoder) (hsrc : s.heap.Full i o (bs ++ 0 :: cs))
    (hi : i < s.heap.next) (hbs : ∀ b ∈ bs, b ≠ 0) (hlen : (bs ++ 0 :: cs).length ≤ 2048)
    (hne : dec.decode (bs ++ [0]) ≠ [])
    (h : env.allocates s.heap.attempts ((dec.decode (bs ++ [0])).length * 2) = true) :
    ∃ t, (q2ConvertLPCSTRToLPWSTR dec ⟨i, 0⟩).run env.machine.handle s =
        (.ok ⟨s.heap.next, 0⟩, t) ∧ Grown .units (wideBytes (dec.decode (bs ++ [0]))) s t := by
  have hspace : (bs ++ 0 :: cs).length ≤ addressSpace := hlen.trans (by decide)
  have hunits : (dec.decode (bs ++ [0])).length ≤ 2048 := by
    refine (dec.length_le _).trans (le_trans ?_ hlen)
    simp
  have hmeasure := run_multiByteToWideChar_length (m := env.machine) (ε := BadAlloc) dec hsrc hbs
    hspace
  obtain ⟨t₁, ds, hrun₁, hds, hgrown⟩ := exists_run_newArray env .units sizeofWchar
    (by omega) (by rw [sizeofWchar]; omega) h
  have hsrc₁ : t₁.heap.Full i o (bs ++ 0 :: cs) := by
    rw [Heap.Full, Heap.Holds, hgrown.object i (by omega)]
    exact hsrc
  obtain ⟨t₂, hrun₂, hfull₂, hsame₂, -⟩ := exists_run_multiByteToWideChar_all (m := env.machine)
    (ε := BadAlloc) dec hsrc₁ hbs hspace hgrown.full (by rw [hds, sizeofWchar, Nat.mul_comm]) hne
  refine ⟨t₂, ?_, hfull₂, fun k hk ↦ ?_, ?_, ?_, ?_, ?_⟩
  · rw [q2ConvertLPCSTRToLPWSTR, run_bind_ok hmeasure, run_bind_ok hrun₁, run_bind_ok hrun₂]
    rfl
  · rw [hsame₂.object k hk, hgrown.object k hk]
  · rw [hsame₂.next, hgrown.next]
  · rw [hsame₂.attempts, hgrown.attempts]
  · rw [hsame₂.faults, hgrown.faults]
  · rw [hsame₂.rest, hgrown.rest]

theorem Grown.other {s t : MState Owner (List PostMessage)} (h : Grown o bs s t) {o' : Owner}
    (hfull : s.heap.Full i o' ds) (hi : i < s.heap.next) : t.heap.Full i o' ds := by
  rw [Heap.Full, Heap.Holds, h.object i (by omega)]
  exact hfull

theorem takeWhile_wide {w : Wide} (hw : ∀ x ∈ w, x ≠ 0) : (w ++ [0]).takeWhile (· ≠ 0) = w := by
  rw [List.takeWhile_append_of_pos (by simpa using hw)]
  exact List.append_nil w

/-- **What is posted** is what the copies are, up to their NULs. -/
theorem exists_run_postStrings (dec : Utf8Decoder) {us ps ucs pcs : Bytes} {wu wp : Wide}
    (hmem : ∀ k size, env.allocates k size = true)
    (hu : s.heap.Full i .characters (us ++ 0 :: ucs)) (hi : i < s.heap.next)
    (hus : ∀ b ∈ us, b ≠ 0) (hulen : (us ++ 0 :: ucs).length ≤ 2048)
    (hwu : dec.decode (us ++ [0]) = wu ++ [0]) (hwu0 : ∀ x ∈ wu, x ≠ 0)
    (hp : s.heap.Full j .characters (ps ++ 0 :: pcs)) (hj : j < s.heap.next)
    (hps : ∀ b ∈ ps, b ≠ 0) (hplen : (ps ++ 0 :: pcs).length ≤ 2048)
    (hwp : dec.decode (ps ++ [0]) = wp ++ [0]) (hwp0 : ∀ x ∈ wp, x ≠ 0) (hij : i ≠ j) :
    ∃ t, (postStrings dec ⟨i, 0⟩ ⟨j, 0⟩).run env.machine.handle s = (.ok (), t) ∧
      t.rest = s.rest ++ [⟨wu, wp⟩] ∧ t.heap.faults = s.heap.faults := by
  have hlen {as bs : Bytes} {w : Wide} (h : dec.decode (as ++ [0]) = w ++ [0])
      (has : (as ++ 0 :: bs).length ≤ 2048) : (w ++ [0]).length ≤ wideSpace := by
    have hle := dec.length_le (as ++ [0])
    rw [h] at hle
    simp only [List.length_append, List.length_cons, List.length_nil, wideSpace] at hle has ⊢
    omega
  have hnul (w : Wide) : (0 : UInt16) ∈ w ++ [0] := List.mem_append_right _ (by simp)
  obtain ⟨t₁, hrun₁, hgrown₁⟩ := exists_run_q2Convert env dec hu hi hus hulen (by rw [hwu]; simp)
    (hmem _ _)
  have hp₁ := hgrown₁.other hp hj
  obtain ⟨t₂, hrun₂, hgrown₂⟩ := exists_run_q2Convert env dec hp₁
    (by rw [hgrown₁.next]; omega) hps hplen (by rw [hwp]; simp) (hmem _ _)
  rw [hwu] at hgrown₁
  rw [hwp] at hgrown₂
  have hnext := hgrown₁.next
  have hu₂ := hgrown₂.other (hgrown₁.other hu hi) (by omega)
  obtain ⟨t₃, hrun₃, hsame₃, -⟩ := hu₂.exists_run_free (m := env.machine) (ε := BadAlloc)
  have hp₃ := hsame₃.holds (hgrown₂.other hp₁ (by omega)) hij.symm
  obtain ⟨t₄, hrun₄, hsame₄, -⟩ := Heap.Holds.exists_run_free (m := env.machine) (ε := BadAlloc) hp₃
  have hwu₄ := hsame₄.holds (hsame₃.holds (hgrown₂.other hgrown₁.full (by omega)) (by omega))
    (by omega)
  have hwp₄ := hsame₄.holds (hsame₃.holds hgrown₂.full (by omega)) (by omega)
  have hreadU := run_scanWide_full (m := env.machine) (ε := BadAlloc) hwu₄ (hnul wu)
    (hlen hwu hulen)
  have hreadP := run_scanWide_full (m := env.machine) (ε := BadAlloc) hwp₄ (hnul wp)
    (hlen hwp hplen)
  rw [takeWhile_wide hwu0] at hreadU
  rw [takeWhile_wide hwp0] at hreadP
  refine ⟨{ t₄ with rest := t₄.rest ++ [⟨wu, wp⟩] }, ?_, ?_, ?_⟩
  · rw [postStrings, run_bind_ok hrun₁, run_bind_ok hrun₂, run_bind_ok hrun₃, run_bind_ok hrun₄,
      run_bind_ok hreadU, run_bind_ok hreadP]
    rfl
  · simp only [hsame₄.rest, hsame₃.rest, hgrown₂.rest, hgrown₁.rest]
  · simp only [hsame₄.faults, hsame₃.faults, hgrown₂.faults, hgrown₁.faults]

end Operations

/-! ## A block of the agent -/

section Block

variable (env : GinaEnv) {dec : Utf8Decoder} {hd u p : Bytes}

/-- What is in memory after `ReadFile`, and the NUL that is put after it. -/
def terminated (env : GinaEnv) (message : Bytes) : Memory :=
  ((env.garbage 0).write 0 message).write message.length [0]

theorem holds_terminated (message : Bytes) : (terminated env message).Holds 0 message :=
  (Memory.holds_write _ _ _).write_of_le (by rw [zero_add])

/-- What is known after the lengths have been computed. -/
structure Opened (env : GinaEnv) (message : Bytes) (t : MState Owner (List PostMessage)) :
    Prop where
  object : t.heap.object 0 =
    some { env.chRecBuf message with data := terminated env message }
  next : t.heap.next = 1
  attempts : t.heap.attempts = 0
  rest : t.rest = []
  faults_of_lt : message.length < 1024 → t.heap.faults = []
  faults_of_eq : message.length = 1024 → .write ⟨0, 1024⟩ 1 ∈ t.heap.faults

/-- The NUL goes after the message, or past the end of the buffer. -/
theorem exists_run_terminate {message : Bytes} (hlen : message.length ≤ 1024) :
    ∃ t, Opened env message t ∧
      (store (Ptr.add ⟨0, 0⟩ message.length) [0] : GinaProg Unit).run env.machine.handle
        (env.start message) = (.ok (), t) := by
  have hobj : (env.start message).heap.object 0 = some (env.chRecBuf message) := rfl
  have hrun : (store (Ptr.add ⟨0, 0⟩ message.length) [0] : GinaProg Unit).run env.machine.handle
      (env.start message) = _ := run_store_data hobj
  refine ⟨_, ⟨?_, ?_, ?_, rfl, fun hlt ↦ ?_, fun heq ↦ ?_⟩, hrun⟩
  · rw [Ptr.add, zero_add]
    exact Heap.set_object_self
  · rw [Heap.set_next, Heap.next_fault]
    rfl
  · rw [Heap.set_attempts, Heap.attempts_fault]
    rfl
  · have hwithin : (env.chRecBuf message).within (Ptr.add ⟨0, 0⟩ message.length)
        ([0] : Bytes).length (env.chRecBuf message).size = true := by
      refine Object.within_of_bounds rfl ?_ ?_ <;>
        simp only [Ptr.add, GinaEnv.chRecBuf, GinaEnv.pipeBufsize, List.length_singleton] <;> omega
    rw [Heap.set_faults, Heap.canWrite_of_object hobj hwithin]
    rfl
  · have hout : (env.start message).heap.canWrite (Ptr.add ⟨0, 0⟩ message.length)
        ([0] : Bytes).length = false := by
      simp only [Heap.canWrite, Ptr.add, hobj]
      simp [Object.within, GinaEnv.chRecBuf, GinaEnv.pipeBufsize, heq]
    rw [Heap.set_faults, hout, Heap.fault, if_neg (by simp), heq]
    exact List.mem_append_right _ (List.mem_singleton.mpr rfl)

/-- **The length of the password is four more than it is.** -/
theorem exists_run_opened (hhd : hd.length = 4) (hdecl : unpackBe32 hd = u.length)
    (hlen : (hd ++ (u ++ (p ++ [0]))).length ≤ 1024) :
    ∃ t, Opened env (hd ++ (u ++ (p ++ [0]))) t ∧ ∀ f : Int → Int → GinaProg Unit,
      (store (Ptr.add ⟨0, 0⟩ (hd ++ (u ++ (p ++ [0]))).length) [0] >>= fun _ ↦ load ⟨0, 0⟩ 4 >>=
        fun raw ↦ toInt (unpackBe32 raw) >>= fun x ↦
          toInt ((hd ++ (u ++ (p ++ [0]))).length - x - 1) >>= f x).run env.machine.handle
            (env.start (hd ++ (u ++ (p ++ [0])))) =
        (f u.length (p.length + 4 : ℕ)).run env.machine.handle t := by
  obtain ⟨t, ht, hrun⟩ := exists_run_terminate env hlen
  have hbuf : t.heap.Holds 0 .chRecBuf GinaEnv.pipeBufsize ([] ++ (hd ++ (u ++ (p ++ [0])))) :=
    ⟨_, ht.object, hlen, holds_terminated env _⟩
  have hload := hbuf.run_load (m := env.machine) (ε := BadAlloc)
    (show (0 : Int) = ([] : Bytes).length from rfl)
  rw [hhd] at hload
  have hsub : ((hd ++ (u ++ (p ++ [0]))).length : Int) - u.length - 1 = (p.length + 4 : ℕ) := by
    simp only [List.length_append, List.length_singleton, hhd]
    omega
  simp only [List.length_append, List.length_singleton, hhd] at hlen
  refine ⟨t, ht, fun f ↦ ?_⟩
  rw [run_bind_ok hrun, run_bind_ok hload, hdecl, run_bind_ok (run_toInt (by omega) (by omega)),
    hsub, run_bind_ok (run_toInt (by omega) (by omega))]

/-- What is known after the user name has been copied. -/
structure Copied (env : GinaEnv) (message u p : Bytes) (t : MState Owner (List PostMessage)) :
    Prop where
  object : t.heap.object 0 =
    some { env.chRecBuf message with data := terminated env message }
  username : t.heap.Full 1 .characters (u ++ [0])
  password : ∃ ds, t.heap.Full 2 .characters ds ∧ ds.length = p.length + 5
  next : t.heap.next = 3
  faults_of_lt : message.length < 1024 → t.heap.faults = []
  rest : t.rest = []

/-- The user name is copied, and an array with room for the password and five bytes is there. -/
theorem exists_run_copied {t : MState Owner (List PostMessage)} (hhd : hd.length = 4)
    (hlen : (hd ++ (u ++ (p ++ [0]))).length ≤ 1024) (ht : Opened env (hd ++ (u ++ (p ++ [0]))) t)
    (h₁ : env.allocates 0 (u.length + 1) = true) (h₂ : env.allocates 1 (p.length + 5) = true) :
    ∃ t', Copied env (hd ++ (u ++ (p ++ [0]))) u p t' ∧ ∀ f : Ptr → Ptr → GinaProg Unit,
      (newArray .characters 1 ((u.length : Int) + 1) >>= fun pstrUserName ↦
        newArray .characters 1 (((p.length + 4 : ℕ) : Int) + 1) >>= fun pstrPassword ↦
          memcpy pstrUserName (Ptr.add ⟨0, 0⟩ 4) u.length >>= fun _ ↦
            store (pstrUserName.add u.length) [0] >>= fun _ ↦
              f pstrUserName pstrPassword).run env.machine.handle t =
        (f ⟨1, 0⟩ ⟨2, 0⟩).run env.machine.handle t' := by
  have hmessage := holds_terminated env (hd ++ (u ++ (p ++ [0])))
  simp only [List.length_append, List.length_singleton, hhd] at hlen
  obtain ⟨t₁, bs, hrun₁, hbs, hgrown₁⟩ := exists_run_newArray env (s := t) (n := u.length + 1)
    .characters 1 (by omega) (by omega) (by rw [ht.attempts, Nat.mul_one]; exact h₁)
  have hfull₁ := hgrown₁.full
  have hnext₁ := hgrown₁.next
  have hobj₁ := hgrown₁.object
  rw [ht.next] at hrun₁ hfull₁ hnext₁ hobj₁
  obtain ⟨t₂, cs, hrun₂, hcs, hgrown₂⟩ := exists_run_newArray env (s := t₁) (n := p.length + 4 + 1)
    .characters 1 (by omega) (by omega)
    (by rw [hgrown₁.attempts, ht.attempts, Nat.mul_one]; exact h₂)
  have hname₂ := hgrown₂.other hfull₁ (by omega)
  have hfull₂ := hgrown₂.full
  have hobj₂ := hgrown₂.object
  rw [hnext₁] at hrun₂ hfull₂ hobj₂
  have hbuf₂ : t₂.heap.object 0 =
      some { env.chRecBuf (hd ++ (u ++ (p ++ [0]))) with
        data := terminated env (hd ++ (u ++ (p ++ [0]))) } := by
    rw [hobj₂ 0 (by omega), hobj₁ 0 (by omega), ht.object]
  -- what is copied is the user name
  have hu : bytesAt (t₂.heap.data 0) (0 + 4) u.length = u := by
    rw [Heap.data_of_object hbuf₂]
    have hpart := hmessage.right.left
    rw [hhd] at hpart
    exact bytesAt_of_holds hpart
  obtain ⟨t₃, hfull₃, helse₃, hfaults₃, hrun₃⟩ := exists_run_copyString env (Ptr.add ⟨0, 0⟩ 4)
    (n := u.length) (β := Unit) (by omega) hname₂ (by omega) hu
  have hread : t₂.heap.canRead (Ptr.add ⟨0, 0⟩ 4) u.length = true := by
    refine Heap.canRead_of_object hbuf₂ (Object.within_of_bounds rfl (by simp [Ptr.add]) ?_)
    simp only [Ptr.add, GinaEnv.chRecBuf, List.length_append, List.length_singleton, hhd]
    omega
  refine ⟨t₃, ⟨?_, hfull₃, ⟨cs, ?_, by omega⟩, ?_, fun hlt ↦ ?_, ?_⟩, fun f ↦ ?_⟩
  · rw [helse₃.object 0 (by omega), hbuf₂]
  · rw [Heap.Full, Heap.Holds, helse₃.object 2 (by omega)]
    exact hfull₂
  · rw [helse₃.next, hgrown₂.next, hnext₁]
  · rw [hfaults₃, hread, Heap.fault, if_pos rfl, hgrown₂.faults, hgrown₁.faults,
      ht.faults_of_lt hlt]
  · rw [helse₃.rest, hgrown₂.rest, hgrown₁.rest, ht.rest]
  · rw [← Nat.cast_succ, run_bind_ok hrun₁, ← Nat.cast_succ, run_bind_ok hrun₂, hrun₃]

/-- **The copy of the password goes on for three bytes after the block.** -/
theorem not_safe_of_allocates (hhd : hd.length = 4) (hdecl : unpackBe32 hd = u.length)
    (hlen : (hd ++ (u ++ (p ++ [0]))).length ≤ 1024)
    (h₁ : env.allocates 0 (u.length + 1) = true) (h₂ : env.allocates 1 (p.length + 5) = true) :
    ¬ env.Safe dec (hd ++ (u ++ (p ++ [0]))) := by
  obtain ⟨t, ht, hrun⟩ := exists_run_opened env hhd hdecl hlen
  obtain ⟨t', ht', hrun'⟩ := exists_run_copied env hhd hlen ht h₁ h₂
  rw [GinaEnv.Safe, GinaEnv.outcome, threadFunc, hrun, hrun', memcpy, bind_assoc]
  simp only [List.length_append, List.length_singleton, hhd] at hlen
  rw [run_bind_ok (run_toSizeT (by omega) (by omega)), bind_assoc]
  refine faults_run_load ?_
  simp only [Heap.canRead, Ptr.add, ht'.object]
  simp [Object.within, GinaEnv.chRecBuf, hhd]
  omega

/-- At the end of the buffer, the NUL goes past it. -/
theorem not_safe_of_full (hhd : hd.length = 4) (hdecl : unpackBe32 hd = u.length)
    (hlen : (hd ++ (u ++ (p ++ [0]))).length = 1024) :
    ¬ env.Safe dec (hd ++ (u ++ (p ++ [0]))) := by
  obtain ⟨t, ht, hrun⟩ := exists_run_opened env hhd hdecl hlen.le
  rw [GinaEnv.Safe, GinaEnv.outcome, threadFunc, hrun]
  exact faults_run_ne_nil (List.ne_nil_of_mem (ht.faults_of_eq hlen))

/-- Without memory for the copies, nothing is copied. -/
theorem safe_of_fail (hhd : hd.length = 4) (hdecl : unpackBe32 hd = u.length)
    (hlen : (hd ++ (u ++ (p ++ [0]))).length < 1024)
    (h : env.allocates 0 (u.length + 1) = false ∨ env.allocates 1 (p.length + 5) = false) :
    env.Safe dec (hd ++ (u ++ (p ++ [0]))) := by
  obtain ⟨t, ht, hrun⟩ := exists_run_opened env hhd hdecl hlen.le
  have hfaults := ht.faults_of_lt hlen
  rw [GinaEnv.Safe, GinaEnv.outcome, threadFunc, hrun]
  simp only [List.length_append, List.length_singleton, hhd] at hlen
  rw [← Nat.cast_succ, ← Nat.cast_succ]
  cases h₁ : env.allocates 0 (u.length + 1) with
  | false =>
    have hfail := run_newArray_of_fail env (s := t) (n := u.length + 1) .characters 1
      (by omega) (by omega) (by rw [ht.attempts, Nat.mul_one]; exact h₁)
    rw [run_bind_error hfail]
    exact hfaults
  | true =>
    obtain ⟨t₁, bs, hrun₁, -, hgrown₁⟩ := exists_run_newArray env (s := t) (n := u.length + 1)
      .characters 1 (by omega) (by omega) (by rw [ht.attempts, Nat.mul_one]; exact h₁)
    have h₂ : env.allocates 1 (p.length + 5) = false := h.resolve_left (by simp [h₁])
    have hfail := run_newArray_of_fail env (s := t₁) (n := p.length + 4 + 1) .characters 1
      (by omega) (by omega) (by rw [hgrown₁.attempts, ht.attempts, Nat.mul_one]; exact h₂)
    rw [run_bind_ok hrun₁, run_bind_error hfail]
    exact hgrown₁.faults.trans hfaults

/-- **The logins that are handled without a fault.** -/
theorem login_safe_iff {args : Dict} {block : Bytes} (hblock : loginCredentials args = .ok block)
    (hlen : block.length ≤ 1024) :
    env.Safe dec block ↔
      block.length < 1024 ∧
        (env.allocates 0 (declared block + 1) = false ∨
          env.allocates 1 (block.length - declared block) = false) := by
  obtain ⟨u, p, hlt, rfl⟩ := exists_of_loginCredentials hblock
  have hhd : (packBe32 u.length).length = 4 := length_packBe32 _
  have hdecl := unpackBe32_packBe32 hlt
  have hdeclared : declared (packBe32 u.length ++ (u ++ (p ++ [0]))) = u.length := by
    rw [declared, ← hhd, List.take_left, hdecl]
  have hrest : (packBe32 u.length ++ (u ++ (p ++ [0]))).length - u.length = p.length + 5 := by
    simp only [List.length_append, List.length_singleton, hhd]
    omega
  rw [hdeclared, hrest]
  constructor
  · intro hsafe
    refine ⟨lt_of_le_of_ne hlen fun heq ↦ not_safe_of_full env hhd hdecl heq hsafe, ?_⟩
    by_contra hno
    simp only [not_or, Bool.not_eq_false] at hno
    exact not_safe_of_allocates env hhd hdecl hlen hno.1 hno.2 hsafe
  · rintro ⟨hlt', h⟩
    exact safe_of_fail env hhd hdecl hlt' h

/-- **What comes of a block**: the user name and the password are posted, whatever is in memory
after the block, and three bytes of that are read. -/
theorem outcome_block {wu wp : Wide} (hhd : hd.length = 4) (hdecl : unpackBe32 hd = u.length)
    (hlen : (hd ++ (u ++ (p ++ [0]))).length ≤ 1024)
    (hmem : ∀ k size, env.allocates k size = true) (hu : ∀ b ∈ u, b ≠ 0) (hp : ∀ b ∈ p, b ≠ 0)
    (hwu : dec.decode (u ++ [0]) = wu ++ [0]) (hwu0 : ∀ x ∈ wu, x ≠ 0)
    (hwp : dec.decode (p ++ [0]) = wp ++ [0]) (hwp0 : ∀ x ∈ wp, x ≠ 0) :
    (env.outcome dec (hd ++ (u ++ (p ++ [0])))).rest = [⟨wu, wp⟩] ∧
      ((hd ++ (u ++ (p ++ [0]))).length < 1024 →
        (env.outcome dec (hd ++ (u ++ (p ++ [0])))).heap.faults =
          [.read ⟨0, 4 + u.length⟩ (p.length + 4)]) := by
  obtain ⟨t, ht, hrun⟩ := exists_run_opened env hhd hdecl hlen
  obtain ⟨t₁, ht₁, hrun₁⟩ := exists_run_copied env hhd hlen ht (hmem _ _) (hmem _ _)
  obtain ⟨ds, hpass₁, hds⟩ := ht₁.password
  have hmessage := holds_terminated env (hd ++ (u ++ (p ++ [0])))
  have hnext := ht₁.next
  -- the copy is the password with its NUL, and three bytes
  set after := bytesAt (terminated env (hd ++ (u ++ (p ++ [0]))))
    (4 + u.length + (p.length + 1 : ℕ)) 3 with hafter
  have hcopy : bytesAt (t₁.heap.data 0) (0 + (4 + u.length)) (p.length + 4) =
      p ++ [0] ++ after := by
    have hpart := hmessage.right.right
    rw [hhd] at hpart
    have hbytes := bytesAt_of_holds hpart
    rw [List.length_append, List.length_singleton] at hbytes
    have hoff : (0 : Int) + (4 + u.length) = 0 + (4 : ℕ) + u.length := by omega
    have hstart : (0 : Int) + (4 : ℕ) + u.length + (p.length + 1 : ℕ) =
        4 + u.length + (p.length + 1 : ℕ) := by omega
    rw [Heap.data_of_object ht₁.object, show p.length + 4 = p.length + 1 + 3 from rfl, hoff,
      bytesAt_add, hbytes, hstart]
  simp only [List.length_append, List.length_singleton, hhd] at hlen
  obtain ⟨t₂, hfull₂, helse₂, hfaults₂, hrun₂⟩ := exists_run_copyString env
    (Ptr.add ⟨0, 0⟩ (4 + u.length)) (n := p.length + 4) (β := Unit) (by omega) hpass₁ hds hcopy
  have hafterlen : after.length = 3 := length_bytesAt ..
  have hstring : p ++ [0] ++ after ++ [0] = p ++ 0 :: (after ++ [0]) := by simp
  rw [hstring] at hfull₂
  have huser₂ : t₂.heap.Full 1 .characters (u ++ 0 :: []) := by
    rw [Heap.Full, Heap.Holds, helse₂.object 1 (by omega)]
    exact ht₁.username
  have hnext₂ : t₂.heap.next = 3 := by
    rw [helse₂.next, hnext]
  obtain ⟨t₃, hrun₃, hrest₃, hfaults₃⟩ := exists_run_postStrings env dec hmem huser₂ (by omega) hu
    (by simp; omega) hwu hwu0 hfull₂ (by omega) hp (by simp [hafterlen]; omega) hwp hwp0 (by omega)
  have houtcome : (env.outcome dec (hd ++ (u ++ (p ++ [0])))) = t₃ := by
    rw [GinaEnv.outcome, threadFunc, hrun, hrun₁, hrun₂, hrun₃]
  rw [houtcome]
  refine ⟨by rw [hrest₃, helse₂.rest, ht₁.rest]; rfl, fun hlt ↦ ?_⟩
  have hread : t₁.heap.canRead (Ptr.add ⟨0, 0⟩ (4 + u.length)) (p.length + 4) = false := by
    simp only [Heap.canRead, Ptr.add, ht₁.object]
    simp [Object.within, GinaEnv.chRecBuf, hhd]
    omega
  rw [hfaults₃, hfaults₂, hread, Heap.fault, if_neg Bool.false_ne_true, ht₁.faults_of_lt hlt]
  simp [Ptr.add]

/-- **The blocks that are handled within the array**: for longer ones, the three bytes are past its
end. -/
theorem inBounds_iff {wu wp : Wide} (hhd : hd.length = 4) (hdecl : unpackBe32 hd = u.length)
    (hlen : (hd ++ (u ++ (p ++ [0]))).length ≤ 1024)
    (hmem : ∀ k size, env.allocates k size = true) (hu : ∀ b ∈ u, b ≠ 0) (hp : ∀ b ∈ p, b ≠ 0)
    (hwu : dec.decode (u ++ [0]) = wu ++ [0]) (hwu0 : ∀ x ∈ wu, x ≠ 0)
    (hwp : dec.decode (p ++ [0]) = wp ++ [0]) (hwp0 : ∀ x ∈ wp, x ≠ 0) :
    env.InBounds dec (hd ++ (u ++ (p ++ [0]))) ↔ (hd ++ (u ++ (p ++ [0]))).length ≤ 1021 := by
  rcases Nat.lt_or_eq_of_le hlen with hlt | heq
  · have hfaults := (outcome_block env hhd hdecl hlen hmem hu hp hwu hwu0 hwp hwp0).2 hlt
    rw [GinaEnv.InBounds, hfaults, List.forall_mem_singleton, GinaEnv.InBuffer]
    simp only [GinaEnv.pipeBufsize]
    simp only [List.length_append, List.length_singleton, hhd]
    refine ⟨fun h ↦ ?_, fun h ↦ ⟨trivial, ?_, ?_⟩⟩ <;> omega
  · obtain ⟨t, ht, hrun⟩ := exists_run_opened env hhd hdecl hlen
    refine iff_of_false (fun h ↦ ?_) (by omega)
    have hfault : .write ⟨0, 1024⟩ 1 ∈ (env.outcome dec (hd ++ (u ++ (p ++ [0])))).heap.faults := by
      rw [GinaEnv.outcome, threadFunc, hrun]
      exact (faults_run _ t).subset (ht.faults_of_eq heq)
    exact h _ hfault

end Block

/-- A thread with memory. -/
def GinaEnv.calm : GinaEnv := ⟨fun _ _ ↦ true, fun _ _ ↦ 0⟩

/-- A thread without. -/
def GinaEnv.exhausted : GinaEnv := ⟨fun _ _ ↦ false, fun _ _ ↦ 0⟩

/-- The login of `ann`, whose password is `pw`. -/
def annLogin : Dict :=
  [(key "username", .str (.unicode (u "ann"))), (key "password", .str (.unicode (u "pw")))]

def annBlock : Bytes := [0, 0, 0, 3, 0x61, 0x6E, 0x6E, 0x70, 0x77, 0]

theorem loginCredentials_annLogin : loginCredentials annLogin = .ok annBlock := by rfl

theorem login_safe_exhausted :
    loginCredentials annLogin = .ok annBlock ∧ annBlock.length ≤ 1024 ∧
      GinaEnv.exhausted.Safe replacing annBlock :=
  ⟨loginCredentials_annLogin, by decide,
    (login_safe_iff _ loginCredentials_annLogin (by decide)).mpr ⟨by decide, .inl rfl⟩⟩

theorem login_not_safe :
    loginCredentials annLogin = .ok annBlock ∧ annBlock.length ≤ 1024 ∧
      ¬ GinaEnv.calm.Safe replacing annBlock := by
  have hnot : ¬ GinaEnv.calm.Safe replacing
      ([0, 0, 0, 3] ++ ([0x61, 0x6E, 0x6E] ++ ([0x70, 0x77] ++ [0]))) :=
    not_safe_of_allocates .calm rfl rfl (by decide) rfl rfl
  exact ⟨loginCredentials_annLogin, by decide, hnot⟩

end GuestAgent.Gina
