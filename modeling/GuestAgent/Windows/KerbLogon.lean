import GuestAgent.Library.Layout
import GuestAgent.Windows.Utf16

/-!
# The packed logon

What the credential provider hands to the system is a block of memory that crosses into another
process: a `KERB_INTERACTIVE_UNLOCK_LOGON` and, behind it, the domain, the user name and the
password.  In the record each string is a `UNICODE_STRING`, and its `Buffer` is no pointer but the
offset of the string in the block.  Who receives the block turns the offsets into pointers again.

`Logon.stores` is what `KerbInteractiveUnlockLogonPack` does, store by store, and `unpackInPlace` is
`KerbInteractiveUnlockLogonUnpackInPlace`.  `unpack_pack` says that a block that was copied to
wherever it is unpacks to the logon that was packed, in the 32-bit build and in the 64-bit one.

What lies between the fields is left as it was in memory, and nothing reads it.
-/

set_option autoImplicit false

namespace GuestAgent.Kerb

open CString CString.Memory

/-! ## The records -/

/-- The two builds. -/
inductive Abi where
  | win32 | x64
  deriving DecidableEq, Repr

/-- `sizeof(PWSTR)`. -/
def Abi.sizeofPtr : Abi → ℕ
  | win32 => 4
  | x64 => 8

/-- The strings of a `KERB_INTERACTIVE_LOGON`. -/
inductive LogonString where
  | logonDomainName | userName | password
  deriving DecidableEq, Repr

/-- Where the `UNICODE_STRING` of a string is in the record.  Two lengths and what aligns the
pointer behind them take as much as a pointer, and so does the `MessageType`. -/
def LogonString.place (abi : Abi) : LogonString → ℕ
  | logonDomainName => abi.sizeofPtr
  | userName => 3 * abi.sizeofPtr
  | password => 5 * abi.sizeofPtr

/-- Where the `LogonId` is. -/
def placeLogonId (abi : Abi) : ℕ := 7 * abi.sizeofPtr

/-- `sizeof(KERB_INTERACTIVE_UNLOCK_LOGON)`. -/
def sizeofLogon (abi : Abi) : ℕ := 7 * abi.sizeofPtr + 8

/-- A `UNICODE_STRING`, with its lengths in bytes. -/
structure UnicodeString where
  length : ℕ
  maximumLength : ℕ
  buffer : ℕ
  deriving DecidableEq, Repr

/-- The `UNICODE_STRING` at `p`. -/
def unicodeString (abi : Abi) (m : Memory) (p : ℕ) : UnicodeString where
  length := leNat (bytesAt m p 2)
  maximumLength := leNat (bytesAt m (p + 2 : ℕ) 2)
  buffer := leNat (bytesAt m (p + abi.sizeofPtr : ℕ) abi.sizeofPtr)

/-- What is packed: the `MessageType`, and the strings without their NUL. -/
structure Logon where
  messageType : ℕ
  string : LogonString → Wide

namespace Logon

variable (abi : Abi) (l : Logon)

def bytes (n : LogonString) : Bytes := wideBytes (l.string n)

/-- Where a string is in the block. -/
def offset : LogonString → ℕ
  | .logonDomainName => sizeofLogon abi
  | .userName => sizeofLogon abi + (l.bytes .logonDomainName).length
  | .password =>
    sizeofLogon abi + (l.bytes .logonDomainName).length + (l.bytes .userName).length

/-- The size of the block. -/
def size : ℕ :=
  sizeofLogon abi + (l.bytes .logonDomainName).length + (l.bytes .userName).length +
    (l.bytes .password).length

/-- `_UnicodeStringPackedUnicodeStringCopy`, and then the offset goes where the pointer was. -/
def packString (n : LogonString) : List (ℕ × Bytes) :=
  [(n.place abi, leBytes 2 (l.bytes n).length),
    (n.place abi + 2, leBytes 2 (l.bytes n).length),
    (l.offset abi n, l.bytes n),
    (n.place abi + abi.sizeofPtr, leBytes abi.sizeofPtr (l.offset abi n))]

/-- The stores of `KerbInteractiveUnlockLogonPack`, each with its place in the block. -/
def stores : List (ℕ × Bytes) :=
  (placeLogonId abi, List.replicate 8 0) :: (0, leBytes 4 l.messageType) ::
    (l.packString abi .logonDomainName ++ l.packString abi .userName ++
      l.packString abi .password)

/-- The same for a block at `p`. -/
def packLog (p : ℕ) : List (Int × Bytes) :=
  (l.stores abi).map fun e ↦ ((p + e.1 : ℕ), e.2)

/-- `UnicodeStringInitWithString` has a length for every string. -/
def Fits : Prop := ∀ n, (l.bytes n).length < 2 ^ 16

end Logon

/-! ## Unpacking -/

/-- The sanity check: with its `MaximumLength`, a string does not go beyond the block.  The sum is
one of `ULONG_PTR`. -/
def UnicodeString.InBlock (abi : Abi) (cb : ℕ) (s : UnicodeString) : Prop :=
  (s.buffer + s.maximumLength) % 0x100 ^ abi.sizeofPtr ≤ cb

instance (abi : Abi) (cb : ℕ) (s : UnicodeString) : Decidable (s.InBlock abi cb) :=
  inferInstanceAs (Decidable (_ ≤ _))

/-- An offset as a pointer into the block at `p`. -/
def rebase (abi : Abi) (p buffer : ℕ) : ℕ :=
  if buffer = 0 then 0 else (p + buffer) % 0x100 ^ abi.sizeofPtr

/-- The store of a pointer in the `UNICODE_STRING` of a string. -/
def storeBuffer (abi : Abi) (p : ℕ) (n : LogonString) (buffer : ℕ) : Int × Bytes :=
  ((p + n.place abi + abi.sizeofPtr : ℕ), leBytes abi.sizeofPtr buffer)

def rebaseString (abi : Abi) (m : Memory) (p : ℕ) (n : LogonString) : Int × Bytes :=
  storeBuffer abi p n (rebase abi p (unicodeString abi m (p + n.place abi)).buffer)

/-- `KerbInteractiveUnlockLogonUnpackInPlace`, of `cb` bytes at `p`. -/
def unpackInPlace (abi : Abi) (m : Memory) (p cb : ℕ) : Memory :=
  if sizeofLogon abi ≤ cb then
    if (unicodeString abi m (p + LogonString.logonDomainName.place abi)).InBlock abi cb ∧
        (unicodeString abi m (p + LogonString.userName.place abi)).InBlock abi cb ∧
        (unicodeString abi m (p + LogonString.password.place abi)).InBlock abi cb then
      m.writeAll [rebaseString abi m p .logonDomainName, rebaseString abi m p .userName,
        rebaseString abi m p .password]
    else m
  else m

/-- What a string of the logon at `p` stands for: `Length` bytes from `Buffer`. -/
def stringAt (abi : Abi) (m : Memory) (p : ℕ) (n : LogonString) : Bytes :=
  let s := unicodeString abi m (p + n.place abi)
  bytesAt m s.buffer s.length

/-! ## What is packed is read back -/

theorem four_le_sizeofPtr (abi : Abi) : 4 ≤ abi.sizeofPtr := by cases abi <;> decide

section Pack

variable {abi : Abi} {l : Logon} {m m' : Memory} {p q : ℕ} {e : ℕ × Bytes} {n : LogonString}

/-- No two stores overlap. -/
theorem apart_stores (abi : Abi) (l : Logon) (p : ℕ) :
    (l.packLog abi p).Pairwise fun e f ↦ Apart f.1 f.2.length e.1 e.2.length := by
  have hw := four_le_sizeofPtr abi
  simp only [Logon.packLog, Logon.stores, Logon.packString, List.cons_append, List.nil_append,
    List.map_cons, List.map_nil, List.pairwise_cons, List.mem_cons, List.not_mem_nil, or_false,
    forall_eq_or_imp, forall_eq, IsEmpty.forall_iff, implies_true, Apart, length_leBytes,
    List.length_replicate, LogonString.place, placeLogonId, Logon.offset, sizeofLogon,
    List.Pairwise.nil, and_true]
  generalize abi.sizeofPtr = w at *
  generalize (l.bytes .logonDomainName).length = d
  generalize (l.bytes .userName).length = u
  and_intros <;> omega

/-- They stay inside the block. -/
theorem le_size_of_mem_stores (he : e ∈ l.stores abi) : e.1 + e.2.length ≤ l.size abi := by
  have hw := four_le_sizeofPtr abi
  revert e
  simp only [Logon.stores, Logon.packString, List.cons_append, List.nil_append, List.mem_cons,
    List.not_mem_nil, or_false, forall_eq_or_imp, forall_eq, length_leBytes, List.length_replicate,
    LogonString.place, placeLogonId, Logon.offset, Logon.size, sizeofLogon]
  generalize abi.sizeofPtr = w at *
  and_intros <;> omega

theorem offset_add_le_size (abi : Abi) (l : Logon) (n : LogonString) :
    l.offset abi n + (l.bytes n).length ≤ l.size abi := by
  cases n <;> simp only [Logon.offset, Logon.size] <;> omega

theorem sizeofLogon_le_offset (abi : Abi) (l : Logon) (n : LogonString) :
    sizeofLogon abi ≤ l.offset abi n := by
  cases n <;> simp only [Logon.offset] <;> omega

theorem offset_lt (hfits : l.Fits) (n : LogonString) : l.offset abi n < 0x100 ^ abi.sizeofPtr := by
  have hd := hfits .logonDomainName
  have hu := hfits .userName
  have hle : l.offset abi n ≤ sizeofLogon abi + 2 ^ 17 := by
    cases n <;> simp only [Logon.offset] <;> omega
  cases abi <;> exact hle.trans_lt (by decide)

/-- The block at `p` is one that was packed. -/
def Packed (abi : Abi) (l : Logon) (m : Memory) (p : ℕ) : Prop :=
  ∀ e ∈ l.stores abi, bytesAt m (p + e.1 : ℕ) e.2.length = e.2

theorem packed_writeAll (abi : Abi) (l : Logon) (m : Memory) (p : ℕ) :
    Packed abi l (m.writeAll (l.packLog abi p)) p :=
  fun e he ↦ bytesAt_writeAll (apart_stores abi l p) (List.mem_map.mpr ⟨e, he, rfl⟩)

/-- A copy of it is one too, wherever it is. -/
theorem Packed.copy (h : Packed abi l m p)
    (hcopy : bytesAt m' q (l.size abi) = bytesAt m p (l.size abi)) : Packed abi l m' q := by
  intro e he
  have hsub := bytesAt_of_bytesAt hcopy (le_size_of_mem_stores he)
  rw [← Nat.cast_add, ← Nat.cast_add] at hsub
  exact hsub.trans (h e he)

theorem Packed.messageType (h : Packed abi l m p) (hl : l.messageType < 2 ^ 32) :
    leNat (bytesAt m p 4) = l.messageType := by
  have hread := h (0, leBytes 4 l.messageType) (by simp [Logon.stores])
  rw [length_leBytes] at hread
  exact (congrArg leNat hread).trans (leNat_leBytes_of_lt hl)

theorem Packed.bytes (h : Packed abi l m p) (n : LogonString) :
    bytesAt m (p + l.offset abi n : ℕ) (l.bytes n).length = l.bytes n :=
  h (l.offset abi n, l.bytes n) (by cases n <;> simp [Logon.stores, Logon.packString])

/-- A string's place in the record, its lengths and its offset. -/
theorem Packed.unicodeString (h : Packed abi l m p) (hfits : l.Fits) (n : LogonString) :
    unicodeString abi m (p + n.place abi) =
      ⟨(l.bytes n).length, (l.bytes n).length, l.offset abi n⟩ := by
  have hmem : ∀ e ∈ l.packString abi n, e ∈ l.stores abi := by
    intro e he
    cases n <;> simp [Logon.stores, he]
  have hlength := h (n.place abi, leBytes 2 (l.bytes n).length)
    (hmem _ (by simp [Logon.packString]))
  have hmax := h (n.place abi + 2, leBytes 2 (l.bytes n).length)
    (hmem _ (by simp [Logon.packString]))
  have hbuffer := h (n.place abi + abi.sizeofPtr, leBytes abi.sizeofPtr (l.offset abi n))
    (hmem _ (by simp [Logon.packString]))
  rw [length_leBytes] at hlength hmax hbuffer
  rw [← Nat.add_assoc] at hmax hbuffer
  rw [Kerb.unicodeString, hlength, hmax, hbuffer, leNat_leBytes_of_lt (hfits n),
    leNat_leBytes_of_lt (offset_lt hfits n)]

/-- As long as it passes for the block's, the size is one that the check lets through. -/
theorem Packed.inBlock (h : Packed abi l m p) (hfits : l.Fits) (n : LogonString) :
    (Kerb.unicodeString abi m (p + n.place abi)).InBlock abi (l.size abi) := by
  rw [h.unicodeString hfits, UnicodeString.InBlock]
  exact (Nat.mod_le _ _).trans (offset_add_le_size abi l n)

/-- The stores of the pointers. -/
def buffers (abi : Abi) (l : Logon) (p : ℕ) : List (Int × Bytes) :=
  [LogonString.logonDomainName, .userName, .password].map fun n ↦
    storeBuffer abi p n (p + l.offset abi n)

theorem forall_mem_buffers {P : Int × Bytes → Prop}
    (h : ∀ n, P (storeBuffer abi p n (p + l.offset abi n))) : ∀ e ∈ buffers abi l p, P e := by
  intro e he
  obtain ⟨n, -, rfl⟩ := List.mem_map.mp he
  exact h n

theorem mem_buffers (n : LogonString) :
    storeBuffer abi p n (p + l.offset abi n) ∈ buffers abi l p :=
  List.mem_map_of_mem (by cases n <;> simp)

theorem apart_buffers (abi : Abi) (l : Logon) (p : ℕ) :
    (buffers abi l p).Pairwise fun e f ↦ Apart f.1 f.2.length e.1 e.2.length := by
  simp only [buffers, storeBuffer, List.map_cons, List.map_nil, List.pairwise_cons, List.mem_cons,
    List.not_mem_nil, or_false, forall_eq_or_imp, forall_eq, IsEmpty.forall_iff, implies_true,
    Apart, length_leBytes, LogonString.place, List.Pairwise.nil, and_true]
  generalize abi.sizeofPtr = w
  and_intros <;> omega

/-- The offsets become pointers. -/
theorem Packed.unpackInPlace (h : Packed abi l m p) (hfits : l.Fits)
    (hp : p + l.size abi < 0x100 ^ abi.sizeofPtr) :
    unpackInPlace abi m p (l.size abi) =
      m.writeAll (buffers abi l p) := by
  have hw := four_le_sizeofPtr abi
  have hsize : sizeofLogon abi ≤ l.size abi :=
    (sizeofLogon_le_offset abi l .logonDomainName).trans
      (le_trans (Nat.le_add_right _ _) (offset_add_le_size abi l .logonDomainName))
  have hrebase (n : LogonString) :
      rebaseString abi m p n = storeBuffer abi p n (p + l.offset abi n) := by
    have hlo := sizeofLogon_le_offset abi l n
    have hhi := offset_add_le_size abi l n
    have hne : l.offset abi n ≠ 0 := by
      rw [sizeofLogon] at hlo
      omega
    have hlt : p + l.offset abi n < 0x100 ^ abi.sizeofPtr := by omega
    rw [rebaseString, h.unicodeString hfits, rebase, if_neg hne, Nat.mod_eq_of_lt hlt]
  rw [Kerb.unpackInPlace, if_pos hsize,
    if_pos ⟨h.inBlock hfits .logonDomainName, h.inBlock hfits .userName, h.inBlock hfits .password⟩,
    hrebase, hrebase, hrebase]
  rfl

/-- **A packed logon is read back**: its type and, once it is unpacked, its strings. -/
theorem Packed.unpack (hpacked : Packed abi l m' q) (hfits : l.Fits) (hl : l.messageType < 2 ^ 32)
    (hq : q + l.size abi < 0x100 ^ abi.sizeofPtr) :
    let out := Kerb.unpackInPlace abi m' q (l.size abi)
    leNat (bytesAt out q 4) = l.messageType ∧ ∀ n, stringAt abi out q n = l.bytes n := by
  intro out
  have hout : out = m'.writeAll (buffers abi l q) := hpacked.unpackInPlace hfits hq
  have hsame {i k : ℕ} (h : ∀ n : LogonString, i + k ≤ n.place abi + abi.sizeofPtr ∨
      n.place abi + 2 * abi.sizeofPtr ≤ i) :
      bytesAt out (q + i : ℕ) k = bytesAt m' (q + i : ℕ) k := by
    rw [hout]
    refine bytesAt_writeAll_of_apart (forall_mem_buffers fun n ↦ ?_)
    have := h n
    simp only [storeBuffer, Apart, length_leBytes]
    omega
  have hw := four_le_sizeofPtr abi
  constructor
  · have htype := hsame (i := 0) (k := 4) fun n ↦ by
      cases n <;> simp only [LogonString.place] <;> omega
    rw [Nat.add_zero] at htype
    rw [htype, hpacked.messageType hl]
  · intro n
    have hlo := sizeofLogon_le_offset abi l n
    have hhi := offset_add_le_size abi l n
    have hlength : bytesAt out (q + n.place abi : ℕ) 2 = bytesAt m' (q + n.place abi : ℕ) 2 :=
      hsame fun n' ↦ by cases n <;> cases n' <;> simp only [LogonString.place] <;> omega
    have hmax : bytesAt out (q + n.place abi + 2 : ℕ) 2 =
        bytesAt m' (q + n.place abi + 2 : ℕ) 2 :=
      hsame (i := n.place abi + 2) fun n' ↦ by
        cases n <;> cases n' <;> simp only [LogonString.place] <;> omega
    have hbuffer := bytesAt_writeAll (m := m') (apart_buffers abi l q) (mem_buffers n)
    rw [← hout, length_leBytes] at hbuffer
    have hbytes : bytesAt out (q + l.offset abi n : ℕ) (l.bytes n).length = l.bytes n := by
      refine (hsame fun n' ↦ .inr ?_).trans (hpacked.bytes n)
      rw [sizeofLogon] at hlo
      cases n' <;> simp only [LogonString.place] <;> omega
    have hread := hpacked.unicodeString hfits n
    rw [Kerb.unicodeString, UnicodeString.mk.injEq] at hread
    have hstring : Kerb.unicodeString abi out (q + n.place abi) =
        ⟨(l.bytes n).length, (l.bytes n).length, q + l.offset abi n⟩ := by
      rw [Kerb.unicodeString, hlength, hmax, hbuffer, hread.1, hread.2.1,
        leNat_leBytes_of_lt (by omega)]
    rw [stringAt, hstring, hbytes]

/-- **What was packed is unpacked**, wherever the block was copied to. -/
theorem unpack_pack (abi : Abi) {l : Logon} (hfits : l.Fits) (hl : l.messageType < 2 ^ 32)
    (m : Memory) (p : ℕ) {m' : Memory} {q : ℕ}
    (hcopy : bytesAt m' q (l.size abi) =
      bytesAt (m.writeAll (l.packLog abi p)) p (l.size abi))
    (hq : q + l.size abi < 0x100 ^ abi.sizeofPtr) :
    let out := unpackInPlace abi m' q (l.size abi)
    leNat (bytesAt out q 4) = l.messageType ∧ ∀ n, stringAt abi out q n = l.bytes n :=
  ((packed_writeAll abi l m p).copy hcopy).unpack hfits hl hq

/-- The logon of `ann` on `lab`, whose password is `pw`. -/
def annLogon : Logon where
  messageType := 2
  string
    | .logonDomainName => [0x6C, 0x61, 0x62]
    | .userName => [0x61, 0x6E, 0x6E]
    | .password => [0x70, 0x77]

theorem unpack_pack_annLogon :
    stringAt .x64 (unpackInPlace .x64
      (Memory.writeAll (fun _ ↦ 0) (annLogon.packLog .x64 0x1000)) 0x1000 (annLogon.size .x64))
      0x1000 .password = [0x70, 0x00, 0x77, 0x00] :=
  (unpack_pack .x64 (by intro n; cases n <;> decide) (by decide) (fun _ ↦ 0) 0x1000
    rfl (by decide)).2 .password

end Pack

end GuestAgent.Kerb
