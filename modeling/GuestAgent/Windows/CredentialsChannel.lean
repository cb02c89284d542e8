import GuestAgent.Credentials.Block
import GuestAgent.Windows.MultiByte
import Mathlib.Tactic.IntervalCases

/-!
# The credential provider's side of the credentials channel

The credential provider reads one message from its pipe, into a buffer of 1024 bytes, and
`ParseCredentialsBuffer` takes it apart: the length of the user name, the name, and the rest for the
password.  Both are converted into strings of their own, the user name is split at its first `@`,
and the listener, if there is one, is called with the parts.  Before the function ends, both strings
are overwritten with zeros, as far as `SafeLocalFreeString` goes, and freed.

The length of the user name is whatever the message says.  In a release build, nothing compares it
to the length of the message.

`exists_run_parse` says what the function does with a message whose length is
right, for any listener that leaves the two strings alone.
-/

set_option autoImplicit false

namespace GuestAgent.CredentialsChannel

open CString CHeap Effect Effect.Prog

/-! ## The length -/

/-- Four bytes as an `int` is loaded. -/
def loadInt (b : Bytes) : BitVec 32 := .ofNat 32 (b.foldr (fun x n ↦ x.toNat + 0x100 * n) 0)

/-- `_ntohl`. -/
def ntohl (n : BitVec 32) : BitVec 32 :=
  ((n &&& 0xFF#32) <<< 24) ||| ((n &&& 0xFF00#32) <<< 8) ||| ((n &&& 0xFF0000#32) >>> 8) |||
    ((n &&& 0xFF000000#32) >>> 24)

theorem getLsbD_concat (a b c d : BitVec 8) (i : ℕ) :
    BitVec.getLsbD (w := 32) (d ++ c ++ b ++ a) i =
      if i < 8 then a.getLsbD i else if i < 16 then b.getLsbD (i - 8)
      else if i < 24 then c.getLsbD (i - 16) else d.getLsbD (i - 24) := by
  rw [BitVec.getLsbD_append, BitVec.getLsbD_append, BitVec.getLsbD_append, Nat.sub_sub, Nat.sub_sub]
  by_cases h1 : i < 8
  · rw [if_pos h1, if_pos h1]
  · by_cases h2 : i < 16
    · rw [if_neg h1, if_neg h1, if_pos (by omega), if_pos h2]
    · by_cases h3 : i < 24
      · rw [if_neg h1, if_neg h1, if_neg (by omega), if_neg h2, if_pos (by omega), if_pos h3]
      · rw [if_neg h1, if_neg h1, if_neg (by omega), if_neg h2, if_neg (by omega), if_neg h3]

theorem ntohl_concat (a b c d : BitVec 8) : ntohl (d ++ c ++ b ++ a) = a ++ b ++ c ++ d := by
  refine BitVec.eq_of_getLsbD_eq fun i hi ↦ ?_
  rw [getLsbD_concat]
  simp only [ntohl, BitVec.getLsbD_or, BitVec.getLsbD_and, BitVec.getLsbD_shiftLeft,
    BitVec.getLsbD_ushiftRight, getLsbD_concat]
  interval_cases i <;> simp

theorem toNat_concat (a b c d : UInt8) :
    BitVec.toNat (w := 32) (d.toBitVec ++ c.toBitVec ++ b.toBitVec ++ a.toBitVec) =
      unpackBe32 [d, c, b, a] := by
  simp only [BitVec.toNat_append, UInt8.toNat_toBitVec]
  rw [← Nat.shiftLeft_add_eq_or_of_lt c.toNat_lt, ← Nat.shiftLeft_add_eq_or_of_lt b.toNat_lt,
    ← Nat.shiftLeft_add_eq_or_of_lt a.toNat_lt]
  simp only [Nat.shiftLeft_eq, unpackBe32, List.foldl]
  omega

theorem loadInt_eq (a b c d : UInt8) :
    loadInt [a, b, c, d] = d.toBitVec ++ c.toBitVec ++ b.toBitVec ++ a.toBitVec := by
  apply BitVec.eq_of_toNat_eq
  have ha := a.toNat_lt
  have hb := b.toNat_lt
  have hc := c.toNat_lt
  have hd := d.toNat_lt
  rw [toNat_concat]
  simp only [loadInt, unpackBe32, List.foldr, List.foldl, BitVec.toNat_ofNat]
  omega

/-- **The length is big-endian**, whatever the machine is. -/
theorem toNat_ntohl {b : Bytes} (hb : b.length = 4) : (ntohl (loadInt b)).toNat = unpackBe32 b := by
  obtain ⟨x, y, z, w, rfl⟩ := List.length_eq_four.mp hb
  rw [loadInt_eq, ntohl_concat, toNat_concat]

/-! ## The function -/

/-- What the provider's memory is for. -/
inductive Owner where
  | buffer
  | username
  | password
  | domain
  deriving DecidableEq, Repr

section Programs

variable {X ε : Type} {RX : X → Type}

/-- `SafeLocalFreeString`: the length is one of units, and `SecureZeroMemory` is told bytes. -/
def safeLocalFreeString (sz : Ptr) : MemProg Owner RX ε Unit := do
  let len ← wcslen sz
  store sz (List.replicate len 0)
  free sz

/-- `LocalAlloc(LMEM_FIXED|LMEM_ZEROINIT, ((n + 1) * sizeof(WCHAR)))`. -/
def localAllocString (owner : Owner) (n : Int) : MemProg Owner RX ε (Option Ptr) := do
  let units ← toInt (n + 1)
  let size ← toSizeT (units * sizeofWchar)
  alloc owner true size

/-- `OnCredentialsArrivial`, with the user name, the password, and the domain if there is one. -/
abbrev Listener {X : Type} (RX : X → Type) (ε : Type) : Type :=
  Ptr → Ptr → Option Ptr → MemProg Owner RX ε Unit

/-- Call the listener, if there is one. -/
def notify (listener : Option (Listener RX ε)) (szUserName szPassword : Ptr)
    (szDomain : Option Ptr) : MemProg Owner RX ε Unit :=
  match listener with
  | some onCredentialsArrivial => onCredentialsArrivial szUserName szPassword szDomain
  | none => pure ()

/-- What `ParseCredentialsBuffer` does with the two strings before it frees them. -/
def deliver (listener : Option (Listener RX ε)) (szUserName szPassword : Ptr) :
    MemProg Owner RX ε Unit := do
  let nUserName ← wcslen szUserName
  if nUserName = 0 then return
  let nPassword ← wcslen szPassword
  if nPassword = 0 then return
  match ← wcschr szUserName 0x40 with
  | some szDomain =>
    store szDomain (wideBytes [0])
    notify listener szUserName szPassword (some (szDomain.add sizeofWchar))
  | none => notify listener szUserName szPassword none

/-- `ParseCredentialsBuffer`. -/
def parseCredentialsBuffer (dec : Utf8Decoder) (listener : Option (Listener RX ε)) (pCredBuf : Ptr)
    (nSize : ℕ) : MemProg Owner RX ε Unit := do
  let nUserLen ← toInt (ntohl (loadInt (← load pCredBuf 4))).toNat
  match ← localAllocString .username nUserLen with
  | none => return
  | some szUserName =>
    let nPasswordLen ← toInt (nSize - 4 - nUserLen)
    match ← localAllocString .password nPasswordLen with
    | none => safeLocalFreeString szUserName
    | some szPassword =>
      let _ ← multiByteToWideChar dec (pCredBuf.add 4) nUserLen (some szUserName)
        (toInt32 (nUserLen + 1))
      let _ ← multiByteToWideChar dec (pCredBuf.add (4 + nUserLen)) nPasswordLen
        (some szPassword) (toInt32 (nPasswordLen + 1))
      deliver listener szUserName szPassword
      safeLocalFreeString szUserName
      safeLocalFreeString szPassword

end Programs

/-! ## What it does with a message whose length is right -/

section Runs

variable {X τ ε : Type} {RX : X → Type} {m : Machine Owner RX τ} {s t : MState Owner τ}
variable {i j n size : ℕ} {o : Owner} {v q : Wide}

/-- A string as `SafeLocalFreeString` frees it: as many bytes are zero as it had units. -/
def wiped (v : Wide) : Bytes :=
  let len := (v.takeWhile (· ≠ 0)).length
  List.replicate len 0 ++ (wideBytes v).drop len

theorem exists_run_safeLocalFreeString (h : s.heap.Full i o (wideBytes v)) (hnul : 0 ∈ v)
    (hn : v.length ≤ wideSpace) :
    ∃ t, (safeLocalFreeString ⟨i, 0⟩ : MemProg Owner RX ε _).run m.handle s = (.ok (), t) ∧
      SameBut i s t ∧ t.heap.released = s.heap.released ++ [⟨o, wiped v⟩] := by
  set len := (v.takeWhile (· ≠ 0)).length with hlen
  have hlt : len < v.length := length_takeWhile_lt hnul
  have hsplit : s.heap.Holds i o (wideBytes v).length
      ([] ++ ((wideBytes v).take len ++ (wideBytes v).drop len)) := by
    rwa [List.nil_append, List.take_append_drop]
  have hzeros : (List.replicate len (0 : UInt8)).length = ((wideBytes v).take len).length := by
    rw [List.length_replicate, List.length_take, length_wideBytes]
    omega
  obtain ⟨t₁, hrun₁, hholds₁, hsame₁, hrel₁⟩ := hsplit.exists_run_store (m := m) (ε := ε)
    (show (0 : Int) = ([] : Bytes).length from rfl) hzeros
  have hfull₁ : t₁.heap.Full i o (wiped v) := by
    refine Heap.Holds.full (show t₁.heap.Holds i o (wideBytes v).length (wiped v) from hholds₁) ?_
    rw [wiped, List.length_append, List.length_replicate, List.length_drop, length_wideBytes]
    omega
  obtain ⟨t₂, hrun₂, hsame₂, hrel₂⟩ := hfull₁.exists_run_free (m := m) (ε := ε)
  refine ⟨t₂, ?_, hsame₁.trans hsame₂, by rw [hrel₂, hrel₁]⟩
  rw [safeLocalFreeString, run_bind_ok (run_wcslen h hnul hn), run_bind_ok hrun₁, hrun₂]

theorem run_localAllocString (o : Owner) (hn : n + 1 < 2 ^ 31) :
    (localAllocString o n : MemProg Owner RX ε _).run m.handle s =
      (alloc o true (2 * (n + 1)) : MemProg Owner RX ε _).run m.handle s := by
  have hsize : ((n + 1 : ℕ) : Int) * sizeofWchar = (2 * (n + 1) : ℕ) := by
    simp only [sizeofWchar]
    omega
  rw [localAllocString, ← Nat.cast_succ, run_bind_ok (run_toInt (by omega) (by omega)), hsize,
    run_bind_ok (run_toSizeT (by omega) (by omega)), Int.toNat_natCast]

/-- The strings are freed, the user name first. -/
theorem exists_run_free_strings (hu : s.heap.Full i .username (wideBytes v)) (hv : 0 ∈ v)
    (hvn : v.length ≤ wideSpace) (hp : s.heap.Full j .password (wideBytes q)) (hq : 0 ∈ q)
    (hqn : q.length ≤ wideSpace) (hij : i ≠ j) :
    ∃ t, (safeLocalFreeString ⟨i, 0⟩ >>= fun _ ↦ safeLocalFreeString ⟨j, 0⟩ :
        MemProg Owner RX ε Unit).run m.handle s = (.ok (), t) ∧
      (∀ k, k ≠ i → k ≠ j → t.heap.object k = s.heap.object k) ∧ t.heap.next = s.heap.next ∧
      t.heap.faults = s.heap.faults ∧ t.rest = s.rest ∧
      t.heap.released = s.heap.released ++ [⟨.username, wiped v⟩, ⟨.password, wiped q⟩] := by
  obtain ⟨t₁, hrun₁, hsame₁, hrel₁⟩ := exists_run_safeLocalFreeString (m := m) (ε := ε) hu hv hvn
  have hp₁ := hsame₁.holds hp hij.symm
  obtain ⟨t₂, hrun₂, hsame₂, hrel₂⟩ := exists_run_safeLocalFreeString (m := m) (ε := ε) hp₁ hq hqn
  refine ⟨t₂, by rw [run_bind_ok hrun₁, hrun₂], fun k hi hj ↦ ?_, ?_, ?_, ?_, ?_⟩
  · rw [hsame₂.object k hj, hsame₁.object k hi]
  · rw [hsame₂.next, hsame₁.next]
  · rw [hsame₂.faults, hsame₁.faults]
  · rw [hsame₂.rest, hsame₁.rest]
  · rw [hrel₂, hrel₁, List.append_assoc]
    rfl

/-- The first `@` of a string. -/
theorem exists_split_at {v : Wide} (hat : 0x40 ∈ v.takeWhile (· ≠ 0)) (hnul : 0 ∈ v) :
    ∃ a b, v = a ++ 0x40 :: b ∧ (∀ x ∈ a, x ≠ 0 ∧ x ≠ 0x40) ∧ 0 ∈ b := by
  induction v with
  | nil => cases hnul
  | cons c v ih =>
    by_cases h0 : c = 0
    · rw [List.takeWhile_cons_of_neg (by simpa using h0)] at hat
      cases hat
    · have hnul : 0 ∈ v := (List.mem_cons.mp hnul).resolve_left (Ne.symm h0)
      by_cases hc : c = 0x40
      · exact ⟨[], v, by rw [hc]; rfl, by simp, hnul⟩
      · rw [List.takeWhile_cons_of_pos (by simpa using h0), List.mem_cons] at hat
        obtain ⟨a, b, rfl, ha, hb⟩ := ih (hat.resolve_left (Ne.symm hc)) hnul
        refine ⟨c :: a, b, rfl, ?_, hb⟩
        rintro x (_ | ⟨_, hx⟩)
        · exact ⟨h0, hc⟩
        · exact ha x hx

section Deliver

variable (listener : Option (Listener RX ε)) {a b : Wide}

/-- Nobody is called where a string is empty. -/
theorem run_deliver_of_nil (hu : s.heap.Full i .username (wideBytes v)) (hv : 0 ∈ v)
    (hvn : v.length ≤ wideSpace) (hp : s.heap.Full j .password (wideBytes q)) (hq : 0 ∈ q)
    (hqn : q.length ≤ wideSpace) (hnil : v.takeWhile (· ≠ 0) = [] ∨ q.takeWhile (· ≠ 0) = []) :
    (deliver listener ⟨i, 0⟩ ⟨j, 0⟩).run m.handle s = (.ok (), s) := by
  rw [deliver, run_bind_ok (run_wcslen hu hv hvn)]
  by_cases hu0 : (v.takeWhile (· ≠ 0)).length = 0
  · rw [if_pos hu0]
    rfl
  · have hq0 := hnil.resolve_left fun h ↦ hu0 (List.length_eq_zero_iff.mpr h)
    rw [if_neg hu0, run_bind_ok (run_wcslen hp hq hqn),
      if_pos (List.length_eq_zero_iff.mpr hq0)]
    rfl

/-- Without an `@`, there is no domain. -/
theorem run_deliver_of_notMem (hu : s.heap.Full i .username (wideBytes v)) (hv : 0 ∈ v)
    (hvn : v.length ≤ wideSpace) (hp : s.heap.Full j .password (wideBytes q)) (hq : 0 ∈ q)
    (hqn : q.length ≤ wideSpace) (hvne : v.takeWhile (· ≠ 0) ≠ [])
    (hqne : q.takeWhile (· ≠ 0) ≠ []) (hat : 0x40 ∉ v.takeWhile (· ≠ 0)) :
    (deliver listener ⟨i, 0⟩ ⟨j, 0⟩).run m.handle s =
      (notify listener ⟨i, 0⟩ ⟨j, 0⟩ none).run m.handle s := by
  rw [deliver, run_bind_ok (run_wcslen hu hv hvn),
    if_neg fun h ↦ hvne (List.length_eq_zero_iff.mp h), run_bind_ok (run_wcslen hp hq hqn),
    if_neg fun h ↦ hqne (List.length_eq_zero_iff.mp h), run_bind_ok (run_wcschr hu hv hvn _),
    if_neg hat]

/-- The user name ends at its first `@`, and the domain starts there. -/
theorem exists_run_deliver_at (hu : s.heap.Full i .username (wideBytes (a ++ 0x40 :: b)))
    (ha : ∀ x ∈ a, x ≠ 0 ∧ x ≠ 0x40) (hb : 0 ∈ b) (hvn : (a ++ 0x40 :: b).length ≤ wideSpace)
    (hp : s.heap.Full j .password (wideBytes q)) (hq : 0 ∈ q) (hqn : q.length ≤ wideSpace)
    (hqne : q.takeWhile (· ≠ 0) ≠ []) :
    ∃ t, (deliver listener ⟨i, 0⟩ ⟨j, 0⟩).run m.handle s =
        (notify listener ⟨i, 0⟩ ⟨j, 0⟩ (some ⟨i, 2 * a.length + 2⟩)).run m.handle t ∧
      SameBut i s t ∧ t.heap.Full i .username (wideBytes (a ++ 0 :: b)) ∧
        t.heap.released = s.heap.released := by
  have hname : (a ++ 0x40 :: b).takeWhile (· ≠ 0) = a ++ 0x40 :: b.takeWhile (· ≠ 0) := by
    rw [List.takeWhile_append_of_pos fun x hx ↦ by simpa using (ha x hx).1]
    rfl
  have huser : (a ++ 0x40 :: b.takeWhile (· ≠ 0)).takeWhile (· ≠ 0x40) = a := by
    rw [List.takeWhile_append_of_pos fun x hx ↦ by simpa using (ha x hx).2,
      List.takeWhile_cons_of_neg (by simp), List.append_nil]
  have hmem : 0 ∈ a ++ 0x40 :: b := List.mem_append_right _ (List.mem_cons_of_mem _ hb)
  have hsplit : s.heap.Holds i .username (wideBytes (a ++ 0x40 :: b)).length
      (wideBytes a ++ (wideBytes [0x40] ++ wideBytes b)) := by
    rwa [← wideBytes_append, ← wideBytes_append]
  obtain ⟨t, hrun, hholds, hsame, hrel⟩ := hsplit.exists_run_store (m := m) (ε := ε)
    (show (2 * a.length : Int) = (wideBytes a).length by rw [length_wideBytes]; rfl)
    (show (wideBytes [0]).length = (wideBytes [0x40]).length from rfl)
  rw [← wideBytes_append, ← wideBytes_append] at hholds
  refine ⟨t, ?_, hsame, hholds.full (by simp), hrel⟩
  rw [deliver, run_bind_ok (run_wcslen hu hmem hvn), hname, if_neg (by simp),
    run_bind_ok (run_wcslen hp hq hqn), if_neg fun h ↦ hqne (List.length_eq_zero_iff.mp h),
    run_bind_ok (run_wcschr hu hmem hvn _), hname, if_pos (by simp), huser]
  have hptr : Ptr.add ⟨i, 0⟩ (sizeofWchar * a.length) = ⟨i, 2 * a.length⟩ := by
    simp [Ptr.add, sizeofWchar]
  simp only [hptr]
  rw [run_bind_ok hrun]
  rfl

end Deliver

/-- A message whose length is right is in the buffer: `u` is the user name, and `p` the rest. -/
structure Received (s : MState Owner τ) (j : ℕ) (u p : Bytes) : Prop where
  lt_next : j < s.heap.next
  length_le : 4 + u.length + p.length ≤ 1024
  holds : ∃ size hd, s.heap.Holds j .buffer size (hd ++ (u ++ p)) ∧ hd.length = 4 ∧
    unpackBe32 hd = u.length

/-- What the strings are converted into, which are the two newest objects. -/
structure Converted (dec : Utf8Decoder) (u p : Bytes) (s t : MState Owner τ) : Prop where
  username : t.heap.Full s.heap.next .username
    (wideBytes (padded (dec.decode u) (u.length + 1)))
  password : t.heap.Full (s.heap.next + 1) .password
    (wideBytes (padded (dec.decode p) (p.length + 1)))
  object : ∀ i, i < s.heap.next → t.heap.object i = s.heap.object i
  next : t.heap.next = s.heap.next + 2
  faults : t.heap.faults = s.heap.faults
  released : t.heap.released = s.heap.released
  rest : t.rest = s.rest

section Parse

variable (dec : Utf8Decoder) (listener : Option (Listener RX ε)) {u p : Bytes}

/-- The length is read. -/
theorem Received.run_header (h : Received s j u p) (f : Int → MemProg Owner RX ε Unit) :
    (load ⟨j, 0⟩ 4 >>= fun raw ↦ toInt (ntohl (loadInt raw)).toNat >>= f).run m.handle s =
      (f u.length).run m.handle s := by
  obtain ⟨size, hd, hbuf, hhd, hdecl⟩ := h.holds
  have hlen := h.length_le
  have hbuf' : s.heap.Holds j .buffer size ([] ++ (hd ++ (u ++ p))) := hbuf
  have hload := hbuf'.run_load (m := m) (ε := ε)
    (show (0 : Int) = ([] : Bytes).length from rfl)
  rw [hhd] at hload
  rw [run_bind_ok hload, toNat_ntohl hhd, hdecl, run_bind_ok (run_toInt (by omega) (by omega))]

/-- Without memory for the user name, nothing happens. -/
theorem run_parse_of_fail (h : Received s j u p)
    (h₁ : m.allocates s.heap.attempts (2 * (u.length + 1)) = false) :
    (parseCredentialsBuffer dec listener ⟨j, 0⟩ (4 + u.length + p.length)).run m.handle s =
      (.ok (), { s with heap := s.heap.tried }) := by
  have hlen := h.length_le
  have hfail : (localAllocString .username u.length : MemProg Owner RX ε _).run m.handle s =
      (.ok none, { s with heap := s.heap.tried }) := by
    rw [run_localAllocString .username (by omega), run_alloc_fail .username true h₁]
  rw [parseCredentialsBuffer, h.run_header, run_bind_ok hfail]
  rfl

/-- The length of the password. -/
theorem run_passwordLen (h : Received s j u p) {t : MState Owner τ} :
    (toInt (((4 + u.length + p.length : ℕ) : Int) - 4 - u.length) : MemProg Owner RX ε _).run
      m.handle t = (.ok p.length, t) := by
  have hlen := h.length_le
  have hdiff : ((4 + u.length + p.length : ℕ) : Int) - 4 - u.length = p.length := by
    omega
  rw [hdiff, run_toInt (by omega) (by omega)]

/-- Without memory for the password, the user name is freed, and it is empty still. -/
theorem exists_run_parse_of_fail (h : Received s j u p)
    (h₁ : m.allocates s.heap.attempts (2 * (u.length + 1)) = true)
    (h₂ : m.allocates (s.heap.attempts + 1) (2 * (p.length + 1)) = false) :
    ∃ t bytes,
      (parseCredentialsBuffer dec listener ⟨j, 0⟩ (4 + u.length + p.length)).run m.handle s =
        (.ok (), t) ∧ t.heap.faults = s.heap.faults ∧
      t.heap.released = s.heap.released ++ [⟨.username, bytes⟩] ∧
      (∀ i, i < s.heap.next → t.heap.object i = s.heap.object i) ∧
      t.heap.next = s.heap.next + 1 ∧ t.rest = s.rest := by
  have hlen := h.length_le
  obtain ⟨t₁, hrun₁, hfull₁, hobj₁, hnext₁, hatt₁, hfaults₁, hrel₁, hrest₁⟩ :=
    exists_run_alloc_zeroed (o := Owner.username) (ε := ε) h₁
  rw [← run_localAllocString .username (by omega)] at hrun₁
  rw [← hatt₁] at h₂
  have hfail : (localAllocString .password p.length : MemProg Owner RX ε _).run m.handle t₁ =
      (.ok none, { t₁ with heap := t₁.heap.tried }) := by
    rw [run_localAllocString .password (by omega), run_alloc_fail .password true h₂]
  have hzeros : (MState.mk t₁.heap.tried t₁.rest).heap.Full s.heap.next .username
      (wideBytes (List.replicate (u.length + 1) 0)) := by
    rw [wideBytes_replicate_zero]
    exact hfull₁
  obtain ⟨t₂, hrun₂, hsame₂, hrel₂⟩ := exists_run_safeLocalFreeString (m := m) (ε := ε) hzeros
    (List.mem_replicate.mpr ⟨by omega, rfl⟩) (by rw [List.length_replicate, wideSpace]; omega)
  refine ⟨t₂, wiped (List.replicate (u.length + 1) 0), ?_, hsame₂.faults.trans hfaults₁, ?_,
    fun i hi ↦ ?_, hsame₂.next.trans hnext₁, hsame₂.rest.trans hrest₁⟩
  · rw [parseCredentialsBuffer, h.run_header, run_bind_ok hrun₁]
    simp only
    rw [run_bind_ok (run_passwordLen h), run_bind_ok hfail]
    exact hrun₂
  · rw [hrel₂]
    exact congrArg (· ++ _) hrel₁
  · rw [hsame₂.object i (by omega)]
    exact hobj₁ i (by omega)

/-- **With memory, the strings are converted**, and what follows is about them. -/
theorem exists_run_parse_attempts (h : Received s j u p)
    (h₁ : m.allocates s.heap.attempts (2 * (u.length + 1)) = true)
    (h₂ : m.allocates (s.heap.attempts + 1) (2 * (p.length + 1)) = true) :
    ∃ t, Converted dec u p s t ∧ t.heap.attempts = s.heap.attempts + 2 ∧
      (parseCredentialsBuffer dec listener ⟨j, 0⟩ (4 + u.length + p.length)).run m.handle s =
        (deliver listener ⟨s.heap.next, 0⟩ ⟨s.heap.next + 1, 0⟩ >>= fun _ ↦
          safeLocalFreeString ⟨s.heap.next, 0⟩ >>= fun _ ↦
            safeLocalFreeString ⟨s.heap.next + 1, 0⟩).run m.handle t := by
  have hlen := h.length_le
  have hlt := h.lt_next
  obtain ⟨size, hd, hbuf, hhd, -⟩ := h.holds
  obtain ⟨t₁, hrun₁, hfull₁, hobj₁, hnext₁, hatt₁, hfaults₁, hrel₁, hrest₁⟩ :=
    exists_run_alloc_zeroed (o := Owner.username) (ε := ε) h₁
  rw [← run_localAllocString .username (by omega)] at hrun₁
  rw [← hatt₁] at h₂
  obtain ⟨t₂, hrun₂, hfull₂, hobj₂, hnext₂, hatt₂, hfaults₂, hrel₂, hrest₂⟩ :=
    exists_run_alloc_zeroed (o := Owner.password) (ε := ε) h₂
  rw [← run_localAllocString .password (by omega), hnext₁] at hrun₂
  rw [hnext₁] at hfull₂ hobj₂
  -- the buffer and the array for the user name are as they were
  have hbuf₂ : t₂.heap.Holds j .buffer size (hd ++ (u ++ p)) := by
    rw [Heap.Holds, hobj₂ j (by omega), hobj₁ j (by omega)]
    exact hbuf
  have hname₂ : t₂.heap.Full s.heap.next .username (List.replicate (2 * (u.length + 1)) 0) := by
    rw [Heap.Full, Heap.Holds, hobj₂ _ (by omega)]
    exact hfull₁
  obtain ⟨t₃, hrun₃, hfull₃, hsame₃, hrel₃⟩ := exists_run_multiByteToWideChar (m := m) (ε := ε) dec
    hbuf₂ (show (0 + 4 : Int) = hd.length by rw [hhd]; rfl) hname₂ (Nat.lt_succ_self _)
  have hbuf₃ : t₃.heap.Holds j .buffer size ((hd ++ u) ++ (p ++ [])) := by
    rw [List.append_nil, List.append_assoc]
    exact hsame₃.holds hbuf₂ (by omega)
  have hpass₃ := hsame₃.holds hfull₂ (by omega)
  obtain ⟨t₄, hrun₄, hfull₄, hsame₄, hrel₄⟩ := exists_run_multiByteToWideChar (m := m) (ε := ε) dec
    hbuf₃ (show (0 + (4 + u.length) : Int) = (hd ++ u).length by rw [List.length_append, hhd]; simp)
    hpass₃ (Nat.lt_succ_self _)
  refine ⟨t₄, ⟨hsame₄.holds hfull₃ (by omega), hfull₄, fun i hi ↦ ?_, ?_, ?_, ?_, ?_⟩, ?_, ?_⟩
  · rw [hsame₄.object i (by omega), hsame₃.object i (by omega), hobj₂ i (by omega),
      hobj₁ i (by omega)]
  · rw [hsame₄.next, hsame₃.next, hnext₂, hnext₁]
  · rw [hsame₄.faults, hsame₃.faults, hfaults₂, hfaults₁]
  · rw [hrel₄, hrel₃, hrel₂, hrel₁]
  · rw [hsame₄.rest, hsame₃.rest, hrest₂, hrest₁]
  · rw [hsame₄.attempts, hsame₃.attempts, hatt₂, hatt₁]
  · have hcch (n : ℕ) (hn : n ≤ 1024) : toInt32 ((n : Int) + 1) = (n + 1 : ℕ) :=
      toInt32_of_bounds (by omega) (by omega)
    rw [parseCredentialsBuffer, h.run_header, run_bind_ok hrun₁]
    simp only
    rw [run_bind_ok (run_passwordLen h), run_bind_ok hrun₂]
    simp only
    rw [hcch _ (by omega), hcch _ (by omega), Ptr.add, run_bind_ok hrun₃, Ptr.add,
      run_bind_ok hrun₄]

theorem exists_run_parse (h : Received s j u p)
    (h₁ : m.allocates s.heap.attempts (2 * (u.length + 1)) = true)
    (h₂ : m.allocates (s.heap.attempts + 1) (2 * (p.length + 1)) = true) :
    ∃ t, Converted dec u p s t ∧
      (parseCredentialsBuffer dec listener ⟨j, 0⟩ (4 + u.length + p.length)).run m.handle s =
        (deliver listener ⟨s.heap.next, 0⟩ ⟨s.heap.next + 1, 0⟩ >>= fun _ ↦
          safeLocalFreeString ⟨s.heap.next, 0⟩ >>= fun _ ↦
            safeLocalFreeString ⟨s.heap.next + 1, 0⟩).run m.handle t := by
  obtain ⟨t, hconv, -, hrun⟩ := exists_run_parse_attempts dec listener h h₁ h₂
  exact ⟨t, hconv, hrun⟩

end Parse

end Runs

end GuestAgent.CredentialsChannel
