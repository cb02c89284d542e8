import GuestAgent.Windows.Account
import GuestAgent.Windows.Agreement
import GuestAgent.Windows.KerbLogon
import GuestAgent.Windows.Provider

/-!
# The credential, serialized

When the system wants to log somebody on, it asks the credential for its serialization.
`GetSerialization` makes a `KERB_INTERACTIVE_UNLOCK_LOGON` out of the three fields and packs it into
a new block, which is handed out and freed by the system.

`getSerialization_exec` says what comes of it after anything the provider has been told: the account
that is remembered is in the block, or there is none, or no memory for the block.  That a string is
too long for a `UNICODE_STRING` cannot happen, for a message is not that long.
`unpack_getSerialization` is the whole way, from the agent's block to what is read after the logon
has been unpacked, in whatever process.
-/

set_option autoImplicit false

namespace GuestAgent.OVirtCredentials

open CString CString.Memory CHeap Effect Effect.Prog Kerb
open OVirtProvider (UsageScenario)
open CredentialsChannel (Delivery delivery)

/-! ## The function -/

/-- What `GetSerialization` fails with before there is a block. -/
inductive Failure where
  | invalidArg | outOfMemory | arithmeticOverflow
  deriving DecidableEq, Repr

/-- A method that may fail. -/
abbrev Serializer (α : Type) : Type := MemProg CredentialsChannel.Owner FieldOp.Resp Failure α

/-- A `UNICODE_STRING` whose `Buffer` belongs to somebody else. -/
structure WeakString where
  length : ℕ
  buffer : Ptr
  deriving DecidableEq, Repr

/-- `UnicodeStringInitWithString`: neither the units nor the bytes may be too many for a
`USHORT`. -/
def unicodeStringInitWithString : Option Ptr → Serializer WeakString
  | some pwz => do
    let lenString ← wcslen pwz
    if 0xFFFF < lenString then raise .arithmeticOverflow
    else if 0xFFFF < sizeofWchar * lenString then raise .arithmeticOverflow
    else return ⟨sizeofWchar * lenString, pwz⟩
  | none => raise .invalidArg

/-- The logon that is packed. -/
structure WeakLogon where
  messageType : ℕ
  logonDomainName : WeakString
  userName : WeakString
  password : WeakString

/-- `_UnicodeStringPackedUnicodeStringCopy`, and the offset of the copy.  The pointer to the copy
is in the record only in between. -/
def packedCopy (abi : Abi) (pkiulOut : Ptr) (n : LogonString) (rus : WeakString) (offset : ℕ) :
    Serializer Unit := do
  store (pkiulOut.add (n.place abi : ℕ)) (leBytes 2 rus.length)
  store (pkiulOut.add (n.place abi + 2 : ℕ)) (leBytes 2 rus.length)
  let bytes ← load rus.buffer rus.length
  store (pkiulOut.add offset) bytes
  store (pkiulOut.add (n.place abi + abi.sizeofPtr : ℕ)) (leBytes abi.sizeofPtr offset)

/-- `KerbInteractiveUnlockLogonPack`: the block and its size, a `DWORD`. -/
def kerbInteractiveUnlockLogonPack (abi : Abi) (kiul : WeakLogon) : Serializer (Ptr × ℕ) := do
  let cb := (sizeofLogon abi + kiul.logonDomainName.length + kiul.userName.length +
    kiul.password.length) % 2 ^ 32
  match ← alloc .buffer false cb with
  | some pkiulOut =>
    store (pkiulOut.add (placeLogonId abi : ℕ)) (List.replicate 8 0)
    store (pkiulOut.add (0 : ℕ)) (leBytes 4 kiul.messageType)
    packedCopy abi pkiulOut .logonDomainName kiul.logonDomainName (sizeofLogon abi)
    packedCopy abi pkiulOut .userName kiul.userName
      (sizeofLogon abi + kiul.logonDomainName.length)
    packedCopy abi pkiulOut .password kiul.password
      (sizeofLogon abi + kiul.logonDomainName.length + kiul.userName.length)
    return (pkiulOut, cb)
  | none => raise .outOfMemory

/-- `KerbWorkstationUnlockLogon` or `KerbInteractiveLogon`. -/
def messageType (cpus : UsageScenario) : ℕ :=
  if cpus = .unlockWorkstation then 7 else 2

/-- What is handed out. -/
structure Serialization where
  rgbSerialization : Ptr
  cbSerialization : ℕ
  /-- The package, and then the credential is finished, or what the function fails with after all:
  the block is handed out anyway. -/
  ulAuthenticationPackage : Except ℕ ℕ

/-- `GetSerialization`.  What the LSA says of the package is `package`. -/
def getSerialization (abi : Abi) (cpus : UsageScenario) (package : Except ℕ ℕ) :
    Serializer Serialization := do
  let logonDomainName ← unicodeStringInitWithString (← ext (FieldOp.get .wzDomain))
  let userName ← unicodeStringInitWithString (← ext (FieldOp.get .wzUserName))
  let password ← unicodeStringInitWithString (← ext (FieldOp.get .wzPassword))
  let (rgb, cb) ← kerbInteractiveUnlockLogonPack abi
    ⟨messageType cpus, logonDomainName, userName, password⟩
  return ⟨rgb, cb, package⟩

/-- The string of a logon on an account. -/
def Account.logonString (a : Account) : LogonString → Wide
  | .logonDomainName => a.domain
  | .userName => a.userName
  | .password => a.password

/-- The logon on an account. -/
def Account.logon (a : Account) (cpus : UsageScenario) : Logon := ⟨messageType cpus, a.logonString⟩

/-! ## The block -/

section Block

variable {env : StepEnv} {base i j size k : ℕ} {s t : State} {m : Memory} {bs : Bytes} {w : Wide}
variable {o : CredentialsChannel.Owner} {abi : Abi} {n : LogonString}

/-- A state with a block in it. -/
def withBlock (s : State) (i size : ℕ) (m : Memory) : State :=
  { s with heap := s.heap.set i ⟨.buffer, size, size, m, true⟩ }

theorem run_store_block (h : k + bs.length ≤ size) :
    (store ((⟨i, 0⟩ : Ptr).add k) bs : Serializer _).run (env.machine base).handle
      (withBlock s i size m) = (.ok (), withBlock s i size (m.write k bs)) := by
  have hx : (withBlock s i size m).heap.object ((⟨i, 0⟩ : Ptr).add k).object =
      some ⟨.buffer, size, size, m, true⟩ := Heap.set_object_self
  rw [run_store hx (Object.within_of_bounds rfl (by simp [Ptr.add]) (by simp [Ptr.add]; omega))]
  simp [withBlock, Heap.set, Ptr.add]

theorem holds_withBlock (h : s.heap.Holds j o k bs) (hne : j ≠ i) :
    (withBlock s i size m).heap.Holds j o k bs := by
  rw [Heap.Holds, withBlock, Heap.set_object_of_ne hne]
  exact h

/-- A string is copied into the block. -/
theorem run_packedCopy (env : StepEnv) (base : ℕ) (s : State) (m : Memory)
    (hw : s.heap.Full j o (wideBytes (w ++ [0]))) (hne : j ≠ i)
    (hplace : n.place abi + 2 * abi.sizeofPtr ≤ size) (hk : k + (wideBytes w).length ≤ size) :
    (packedCopy abi ⟨i, 0⟩ n ⟨(wideBytes w).length, ⟨j, 0⟩⟩ k).run (env.machine base).handle
      (withBlock s i size m) = (.ok (), withBlock s i size (m.writeAll
        [((n.place abi : ℕ), leBytes 2 (wideBytes w).length),
          ((n.place abi + 2 : ℕ), leBytes 2 (wideBytes w).length), (k, wideBytes w),
          ((n.place abi + abi.sizeofPtr : ℕ), leBytes abi.sizeofPtr k)])) := by
  have hfour := four_le_sizeofPtr abi
  have hload (m : Memory) : (load ⟨j, 0⟩ (wideBytes w).length : Serializer _).run
      (env.machine base).handle (withBlock s i size m) =
        (.ok (wideBytes w), withBlock s i size m) := by
    have hsplit : s.heap.Holds j o (wideBytes (w ++ [0])).length
        ([] ++ (wideBytes w ++ wideBytes [0])) := by
      rwa [List.nil_append, ← wideBytes_append]
    exact (holds_withBlock hsplit hne).run_load rfl
  have hstore (p k : ℕ) (hp : p + k ≤ size) (x : ℕ) (m : Memory) :
      (store ((⟨i, 0⟩ : Ptr).add p) (leBytes k x) : Serializer _).run (env.machine base).handle
        (withBlock s i size m) = (.ok (), withBlock s i size (m.write p (leBytes k x))) :=
    run_store_block (by rwa [length_leBytes])
  rw [packedCopy, run_bind_ok (hstore _ 2 (by omega) _ _), run_bind_ok (hstore _ 2 (by omega) _ _),
    run_bind_ok (hload _), run_bind_ok (run_store_block hk), hstore _ _ (by omega)]
  rfl

/-- The size of a block is no more than a `DWORD` holds. -/
theorem size_eq {l : Logon} (hfits : l.Fits) :
    (sizeofLogon abi + (l.bytes .logonDomainName).length + (l.bytes .userName).length +
      (l.bytes .password).length) % 2 ^ 32 = l.size abi := by
  have hd := hfits .logonDomainName
  have hu := hfits .userName
  have hp := hfits .password
  have hsizeof : sizeofLogon abi ≤ 64 := by cases abi <;> decide
  exact Nat.mod_eq_of_lt (by omega)

/-- With memory for it, a block is made of the strings. -/
theorem run_kerbInteractiveUnlockLogonPack {l : Logon} (hfits : l.Fits)
    {strings : LogonString → ℕ} {owner : LogonString → CredentialsChannel.Owner}
    (hstrings : ∀ n, strings n < s.heap.next ∧
      s.heap.Full (strings n) (owner n) (wideBytes (l.string n ++ [0])))
    (halloc : (env.machine base).allocates s.heap.attempts (l.size abi) = true) :
    (kerbInteractiveUnlockLogonPack abi ⟨l.messageType,
        ⟨(l.bytes .logonDomainName).length, ⟨strings .logonDomainName, 0⟩⟩,
        ⟨(l.bytes .userName).length, ⟨strings .userName, 0⟩⟩,
        ⟨(l.bytes .password).length, ⟨strings .password, 0⟩⟩⟩).run (env.machine base).handle s =
      (.ok (⟨s.heap.next, 0⟩, l.size abi),
        withBlock { s with heap := { s.heap.tried with next := s.heap.next + 1 } } s.heap.next
          (l.size abi) ((env.garbage s.heap.next).writeAll (l.packLog abi 0))) := by
  have hfour := four_le_sizeofPtr abi
  have hend (n : LogonString) : n.place abi + 2 * abi.sizeofPtr ≤ l.size abi := by
    cases n <;> simp only [LogonString.place, Logon.size, sizeofLogon] <;> omega
  set s' : State := { s with heap := { s.heap.tried with next := s.heap.next + 1 } }
  have hnew : (alloc .buffer false (l.size abi) : Serializer _).run (env.machine base).handle s =
      (.ok (some ⟨s.heap.next, 0⟩),
        withBlock s' s.heap.next (l.size abi) (env.garbage s.heap.next)) :=
    run_alloc .buffer false halloc
  have hcopy (n : LogonString) (k : ℕ) (hk : k = l.offset abi n) (m : Memory) :
      (packedCopy abi ⟨s.heap.next, 0⟩ n ⟨(l.bytes n).length, ⟨strings n, 0⟩⟩ k).run
        (env.machine base).handle (withBlock s' s.heap.next (l.size abi) m) =
        (.ok (), withBlock s' s.heap.next (l.size abi)
          (m.writeAll ((l.packString abi n).map fun e ↦ ((e.1 : ℕ), e.2)))) := by
    subst hk
    exact run_packedCopy env base s' m (hstrings n).2 (hstrings n).1.ne (hend n)
      (offset_add_le_size abi l n)
  have hlogonId : placeLogonId abi + (List.replicate 8 (0 : UInt8)).length ≤ l.size abi := by
    rw [List.length_replicate, placeLogonId, Logon.size, sizeofLogon]
    omega
  have htype : 0 + (leBytes 4 l.messageType).length ≤ l.size abi := by
    rw [length_leBytes, Logon.size, sizeofLogon]
    omega
  rw [kerbInteractiveUnlockLogonPack, size_eq hfits, run_bind_ok hnew]
  simp only
  rw [run_bind_ok (run_store_block hlogonId), run_bind_ok (run_store_block htype),
    run_bind_ok (hcopy .logonDomainName (sizeofLogon abi) rfl _),
    run_bind_ok (hcopy .userName (sizeofLogon abi + (l.bytes .logonDomainName).length) rfl _),
    run_bind_ok (hcopy .password (sizeofLogon abi + (l.bytes .logonDomainName).length +
      (l.bytes .userName).length) rfl _)]
  simp [Logon.packLog, Logon.stores, Logon.packString, writeAll]

/-- A string that fits is referred to. -/
theorem run_unicodeStringInitWithString (env : StepEnv) (base : ℕ) (hw : ∀ c ∈ w, c ≠ 0)
    (hlen : w.length < 2 ^ 15) (hfull : s.heap.Full i o (wideBytes (w ++ [0]))) :
    (unicodeStringInitWithString (some ⟨i, 0⟩)).run (env.machine base).handle s =
      (.ok ⟨(wideBytes w).length, ⟨i, 0⟩⟩, s) := by
  have hstr : (w ++ [0]).takeWhile (· ≠ 0) = w := by
    rw [List.takeWhile_append_of_pos (by simpa using hw), List.takeWhile_cons_of_neg (by simp),
      List.append_nil]
  have hspace : (w ++ [0]).length ≤ wideSpace := by
    rw [List.length_append, List.length_singleton, wideSpace]
    omega
  have hwcslen := run_wcslen (m := env.machine base) (ε := Failure) hfull (by simp) hspace
  rw [hstr] at hwcslen
  have hbytes : ¬ 0xFFFF < sizeofWchar * w.length := by
    rw [sizeofWchar]
    omega
  rw [unicodeStringInitWithString, run_bind_ok hwcslen, if_neg (by omega), if_neg hbytes,
    length_wideBytes]
  rfl

variable {a : Account} {cpus : UsageScenario}

theorem fits_logon (hlen : ∀ n, (a.string n).length < 2 ^ 15) : (a.logon cpus).Fits := by
  intro n
  have hd := hlen .wzDomain
  have hu := hlen .wzUserName
  have hp := hlen .wzPassword
  rw [Logon.bytes, length_wideBytes]
  cases n <;> simp only [Account.logon, Account.logonString, Account.string] at * <;> omega

/-- Of an account, it is the packed logon that is handed out. -/
theorem run_getSerialization (env : StepEnv) (abi : Abi) (cpus : UsageScenario)
    (package : Except ℕ ℕ) (h : Holds s (some a))
    (hlen : ∀ n, (a.string n).length < 2 ^ 15) :
    ∃ (strings : LogonString → ℕ) (owner : LogonString → CredentialsChannel.Owner),
      (∀ n, strings n < s.heap.next ∧
        s.heap.Full (strings n) (owner n) (wideBytes (a.logonString n ++ [0]))) ∧
      (getSerialization abi cpus package).run (env.machine base).handle s =
        (kerbInteractiveUnlockLogonPack abi ⟨(a.logon cpus).messageType,
          ⟨((a.logon cpus).bytes .logonDomainName).length, ⟨strings .logonDomainName, 0⟩⟩,
          ⟨((a.logon cpus).bytes .userName).length, ⟨strings .userName, 0⟩⟩,
          ⟨((a.logon cpus).bytes .password).length, ⟨strings .password, 0⟩⟩⟩ >>= fun r ↦
            pure ⟨r.1, r.2, package⟩).run (env.machine base).handle s := by
  obtain ⟨hd, -, i, hi, hilt, hifull⟩ := h .wzDomain
  obtain ⟨hu, -, j, hj, hjlt, hjfull⟩ := h .wzUserName
  obtain ⟨hp, -, k, hk, hklt, hkfull⟩ := h .wzPassword
  refine ⟨fun | .logonDomainName => i | .userName => j | .password => k,
    fun | .logonDomainName => .domain | .userName => .username | .password => .password,
    fun n ↦ ?_, ?_⟩
  · cases n
    · exact ⟨hilt, hifull⟩
    · exact ⟨hjlt, hjfull⟩
    · exact ⟨hklt, hkfull⟩
  · have hget (n : FieldName) : (ext (FieldOp.get n) : Serializer _).run
        (env.machine base).handle s = (.ok (s.rest n), s) := rfl
    rw [getSerialization, run_bind_ok (hget _), hi,
      run_bind_ok (run_unicodeStringInitWithString env base hd (hlen .wzDomain) hifull),
      run_bind_ok (hget _), hj,
      run_bind_ok (run_unicodeStringInitWithString env base hu (hlen .wzUserName) hjfull),
      run_bind_ok (hget _), hk,
      run_bind_ok (run_unicodeStringInitWithString env base hp (hlen .wzPassword) hkfull)]
    rfl

end Block

/-! ## After any run -/

section Run

variable {dec : Utf8Decoder} {env : StepEnv} {steps : List Step} {a : Account} {d : Delivery}

/-- What a listener is told is no longer than what was received. -/
theorem length_delivery_le {u p : Wide} (h : delivery u p = some d) :
    d.username.length ≤ u.length ∧ d.password.length ≤ p.length ∧
      ∀ w ∈ d.domain, w.length ≤ u.length := by
  have hu := (List.takeWhile_sublist (· ≠ 0) (l := u)).length_le
  have hp := (List.takeWhile_sublist (· ≠ 0) (l := p)).length_le
  rw [delivery] at h
  split_ifs at h with hnil hat
  · cases h
    have hname := (List.takeWhile_sublist (· ≠ (0x40 : UInt16))
      (l := u.takeWhile (· ≠ 0))).length_le
    have hdomain := (List.dropWhile_sublist (· ≠ (0x40 : UInt16))
      (l := u.takeWhile (· ≠ 0))).length_le
    refine ⟨hname.trans hu, hp, ?_⟩
    rintro w ⟨⟩
    rw [List.length_tail]
    omega
  · cases h
    exact ⟨hu, hp, by simp⟩

/-- The strings of an account fit a message. -/
def Account.Brief (a : Account) : Prop := ∀ n, (a.string n).length ≤ 1024

theorem brief_remember {a₀ : Option Account} (h : ∀ a ∈ a₀, a.Brief) (st : Step) :
    ∀ a ∈ remember dec a₀ st, a.Brief := by
  rcases st with ⟨env, login⟩ | ⟨env⟩
  · rw [remember]
    cases hhears : env.hears dec login with
    | none => exact h
    | some d =>
      rw [Option.elim_some]
      intro a ha
      have hlen := login.length_le
      have hu := dec.length_le login.username
      have hp := dec.length_le login.password
      rw [StepEnv.hears] at hhears
      split_ifs at hhears
      obtain ⟨hname, hpassword, hdomain⟩ := length_delivery_le hhears
      rw [StepEnv.account, Option.mem_def, Option.bind_eq_some_iff] at ha
      obtain ⟨domain, horElse, ha⟩ := ha
      split_ifs at ha
      cases ha
      intro n
      cases n with
      | wzUserName => simp only [Account.string]; omega
      | wzPassword => simp only [Account.string]; omega
      | wzDomain =>
        simp only [Account.string]
        cases hd : d.domain with
        | some w =>
          rw [hd] at horElse
          cases horElse
          have := hdomain domain hd
          omega
        | none =>
          rw [hd] at horElse
          obtain ⟨computer, -, rfl⟩ := Option.map_eq_some_iff.mp horElse
          exact computer.length_le.trans (by decide)
  · simp [remember]

/-- **No string of an account is too long for a `UNICODE_STRING`.** -/
theorem brief_remembered (dec : Utf8Decoder) (steps : List Step) :
    ∀ a ∈ remembered dec steps, a.Brief := by
  exact List.foldlRecOn (motive := fun a₀ : Option Account ↦ ∀ a ∈ a₀, a.Brief) steps _ (by simp)
    fun _ h st _ ↦ brief_remember h st

/-- `GetSerialization` of the provider `s`. -/
def serialize (env : StepEnv) (abi : Abi) (cpus : UsageScenario) (package : Except ℕ ℕ)
    (s : State) : Except Failure Serialization × State :=
  (getSerialization abi cpus package).run (env.machine s.heap.attempts).handle s

/-- What comes of it where `a` is remembered: no access is a fault, the account is remembered still,
and it is in the block, unless there is none, or no memory. -/
structure Serializes (env : StepEnv) (abi : Abi) (cpus : UsageScenario) (package : Except ℕ ℕ)
    (a : Option Account) (out : Except Failure Serialization × State) : Prop where
  faults : out.2.heap.faults = []
  holds : Holds out.2 a
  invalidArg : a = none → out.1 = .error .invalidArg
  outOfMemory : ∀ a' ∈ a, env.allocates 0 ((a'.logon cpus).size abi) = false →
    out.1 = .error .outOfMemory
  packed : ∀ a' ∈ a, env.allocates 0 ((a'.logon cpus).size abi) = true →
    ∃ p, out.1 = .ok ⟨⟨p, 0⟩, (a'.logon cpus).size abi, package⟩ ∧
      Packed abi (a'.logon cpus) (out.2.heap.data p) 0

theorem serializes (env : StepEnv) (abi : Abi) (cpus : UsageScenario) (package : Except ℕ ℕ)
    {s : State} {a : Option Account} (hholds : Holds s a) (hbrief : ∀ a' ∈ a, a'.Brief)
    (hfaults : s.heap.faults = []) :
    Serializes env abi cpus package a (serialize env abi cpus package s) := by
  rw [serialize]
  have halloc (size : ℕ) : (env.machine s.heap.attempts).allocates s.heap.attempts size =
      env.allocates 0 size :=
    congrArg (env.allocates · size) (Nat.sub_self _)
  cases a with
  | none =>
    have hrun : (getSerialization abi cpus package).run (env.machine s.heap.attempts).handle s =
        (.error .invalidArg, s) := by
      have hget : (ext (FieldOp.get .wzDomain) : Serializer _).run
          (env.machine s.heap.attempts).handle s = (.ok none, s) := by
        rw [run_ext]
        exact congrArg (fun p ↦ (Except.ok p, s)) (hholds .wzDomain)
      rw [getSerialization, run_bind_ok hget]
      rfl
    rw [hrun]
    exact ⟨hfaults, hholds, fun _ ↦ rfl, by simp, by simp⟩
  | some a =>
    have hlen (n : FieldName) : (a.string n).length < 2 ^ 15 :=
      (hbrief a rfl n).trans_lt (by decide)
    obtain ⟨strings, owner, hstrings, hrun⟩ :=
      run_getSerialization env abi cpus package hholds hlen
    rw [hrun]
    cases hb : env.allocates 0 ((a.logon cpus).size abi) with
    | false =>
      have hfail := run_alloc_fail (m := env.machine s.heap.attempts) (ε := Failure)
        CredentialsChannel.Owner.buffer false ((halloc _).trans hb)
      rw [kerbInteractiveUnlockLogonPack, size_eq (fits_logon hlen),
        run_bind_error ((run_bind_ok hfail).trans rfl)]
      refine ⟨hfaults, hholds, by simp, fun _ _ _ ↦ rfl, ?_⟩
      rintro a' ⟨⟩ htrue
      exact absurd (hb.symm.trans htrue) (by simp)
    | true =>
      rw [run_bind_ok (run_kerbInteractiveUnlockLogonPack (fits_logon hlen) hstrings
        ((halloc _).trans hb))]
      refine ⟨hfaults, ?_, by simp, ?_, ?_⟩
      · exact hholds.of_object rfl (Nat.le_succ _) fun i hi ↦ .inr (Heap.set_object_of_ne hi.ne)
      · rintro a' ⟨⟩ hfalse
        exact absurd (hb.symm.trans hfalse) (by simp)
      · rintro a' ⟨⟩ -
        refine ⟨s.heap.next, rfl, ?_⟩
        rw [run_pure, withBlock, Heap.data_of_object Heap.set_object_self]
        exact packed_writeAll abi _ _ 0

/-- **What the provider remembers is what is handed out**, after anything it was told. -/
theorem getSerialization_exec (dec : Utf8Decoder) (steps : List Step) (env : StepEnv) (abi : Abi)
    (cpus : UsageScenario) (package : Except ℕ ℕ) :
    Serializes env abi cpus package (remembered dec steps)
      (serialize env abi cpus package (exec dec steps)) := by
  obtain ⟨hholds, hfaults⟩ := holds_foldl_step dec steps holds_start
  exact serializes env abi cpus package hholds (brief_remembered dec steps) hfaults

end Run

/-! ## From the agent's block to the logon -/

section Credentials

variable {dec : Utf8Decoder} {c : Credentials} {login : Login} {env : StepEnv}

/-- The agent's block is a message of the strings and the pad byte. -/
theorem login_eq (h : loginCredentials c.args = .ok login.message) :
    login.username = encodeUtf8 c.username ∧ login.password = encodeUtf8 c.password ++ [0] := by
  have hlen := login.length_le
  rw [loginCredentials_args, packCredentials] at h
  split at h
  · rename_i hlt
    have hmessage := Except.ok.inj h
    rw [Login.message, List.append_assoc] at hmessage
    obtain ⟨hhead, htail⟩ := List.append_inj hmessage rfl
    have hnum := congrArg unpackBe32 hhead
    rw [unpackBe32_packBe32 hlt, unpackBe32_packBe32 (by omega)] at hnum
    obtain ⟨hu, hp⟩ := List.append_inj htail hnum
    exact ⟨hu.symm, hp.symm⟩
  · cases h

/-- What is remembered of the agent's block. -/
theorem remember_login (hu : c.username ≠ []) (hp : c.password ≠ [])
    (hlogin : loginCredentials c.args = .ok login.message)
    (hmem : ∀ k size, env.allocates k size = true) (hlistening : env.listening = true)
    {domain : Wide}
    (hdomain : (c.domain.map dec.wide <|> env.computerName.map (·.name)) = some domain)
    (a₀ : Option Account) :
    remember dec a₀ (.message env login) =
      some ⟨dec.wide c.user, dec.wide c.password, domain⟩ := by
  obtain ⟨husername, hpassword⟩ := login_eq hlogin
  have hdelivery := delivery_wide dec hu hp
  rw [remember, StepEnv.hears, hmem, hmem, hlistening, husername, hpassword,
    decode_pad dec c.isChar_password, ← Utf8Decoder.wide, hdelivery]
  simp only [and_self, if_true, Option.elim_some, StepEnv.account]
  rw [hdomain, Option.bind_some, hmem, hmem, hmem]
  simp

/-- **From the agent's block to the logon.**  The last login is what is read from the block,
wherever that is copied to and unpacked. -/
theorem unpack_getSerialization (dec : Utf8Decoder) (steps : List Step) (env env' : StepEnv)
    (abi : Abi) (cpus : UsageScenario) (package : Except ℕ ℕ) (c : Credentials) (login : Login)
    (domain : Wide) (hu : c.username ≠ []) (hp : c.password ≠ [])
    (hlogin : loginCredentials c.args = .ok login.message)
    (hmem : ∀ k size, env.allocates k size = true) (hlistening : env.listening = true)
    (hdomain : (c.domain.map dec.wide <|> env.computerName.map (·.name)) = some domain)
    (hmem' : ∀ k size, env'.allocates k size = true) :
    let out := serialize env' abi cpus package (exec dec (steps ++ [.message env login]))
    ∃ p cb, out.1 = .ok ⟨⟨p, 0⟩, cb, package⟩ ∧ out.2.heap.faults = [] ∧
      ∀ (m : Memory) (q : ℕ), bytesAt m q cb = bytesAt (out.2.heap.data p) 0 cb →
        q + cb < 0x100 ^ abi.sizeofPtr →
          let unpacked := unpackInPlace abi m q cb
          leNat (bytesAt unpacked q 4) = messageType cpus ∧
            stringAt abi unpacked q .userName = wideBytes (dec.wide c.user) ∧
            stringAt abi unpacked q .password = wideBytes (dec.wide c.password) ∧
            stringAt abi unpacked q .logonDomainName = wideBytes domain := by
  intro out
  have hremembered : remembered dec (steps ++ [.message env login]) =
      some ⟨dec.wide c.user, dec.wide c.password, domain⟩ := by
    rw [remembered, List.foldl_append]
    exact remember_login hu hp hlogin hmem hlistening hdomain _
  obtain ⟨hholds, hfaults⟩ := holds_foldl_step dec (steps ++ [.message env login]) holds_start
  have hbrief := brief_remembered dec _ _ hremembered
  have hout : Serializes env' abi cpus package _ out :=
    serializes env' abi cpus package hholds (brief_remembered dec _) hfaults
  obtain ⟨p, hok, hpacked⟩ := hout.packed _ hremembered (hmem' _ _)
  refine ⟨p, _, hok, hout.faults, fun m q hcopy hq ↦ ?_⟩
  have hfits : (Account.logon ⟨dec.wide c.user, dec.wide c.password, domain⟩ cpus).Fits :=
    fits_logon fun n ↦ (hbrief n).trans_lt (by decide)
  have htype : messageType cpus < 2 ^ 32 := by
    rw [messageType]
    split <;> decide
  obtain ⟨htype', hstring⟩ := (hpacked.copy hcopy).unpack hfits htype hq
  exact ⟨htype', hstring .userName, hstring .password, hstring .logonDomainName⟩

end Credentials

/-- The agent's block of `ann@lab`, as a message. -/
def annAtLabLogin : Login :=
  ⟨[0x61, 0x6E, 0x6E, 0x40, 0x6C, 0x61, 0x62], [0x70, 0x77, 0], by decide⟩

theorem unpack_getSerialization_annAtLab :
    let out := serialize .calm .x64 .logon (.ok 0) (exec replacing [.message .calm annAtLabLogin])
    ∃ p cb, out.1 = .ok ⟨⟨p, 0⟩, cb, .ok 0⟩ ∧
      ∀ (m : Memory) (q : ℕ), bytesAt m q cb = bytesAt (out.2.heap.data p) 0 cb →
        q + cb < 0x100 ^ Abi.x64.sizeofPtr →
          stringAt .x64 (unpackInPlace .x64 m q cb) q .userName =
            [0x61, 0, 0x6E, 0, 0x6E, 0] := by
  have hlogin : loginCredentials annAtLab.args = .ok annAtLabLogin.message := rfl
  have hout := unpack_getSerialization replacing [] .calm .calm .x64 .logon (.ok 0) annAtLab
    annAtLabLogin [0x6C, 0x61, 0x62] (by decide) (by decide) hlogin (fun _ _ ↦ rfl) rfl (by decide)
    fun _ _ ↦ rfl
  rw [List.nil_append] at hout
  obtain ⟨p, cb, hok, -, hread⟩ := hout
  refine ⟨p, cb, hok, fun m q hcopy hq ↦ ?_⟩
  have huser := (hread m q hcopy hq).2.1
  exact huser.trans (by decide)

end GuestAgent.OVirtCredentials
