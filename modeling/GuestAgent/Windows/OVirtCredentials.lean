import GuestAgent.Windows.CredentialsChannel

/-!
# Where the credential provider keeps a password

`OVirtCredentials` is the listener of the credentials channel in the provider.  It keeps copies of
the user name, the password and the domain it is told of, until it is told of others or told to
forget them: `resetCredentials` frees the copies, and it overwrites the password first.  So a
password that is received is in two places, the string that `ParseCredentialsBuffer` converts it
into and the copy, and each is wiped by a routine of its own.

The one for the copy covers all of it.  The one for the string is told a length in units, and wipes
as many bytes.  `wiped_exec_iff` says over any run which passwords are nevertheless gone from memory
when it is freed.

The messages of a run are logins: each has the user name whose length it declares.  Of others
`ParseCredentialsBuffer` reads what it was not sent, which is the matter of `message_safe_iff`.
-/

set_option autoImplicit false

namespace GuestAgent.OVirtCredentials

open CString CHeap CredentialsChannel Effect Effect.Prog

/-! ## The class -/

/-- The fields that hold a string. -/
inductive FieldName where
  | wzUserName
  | wzPassword
  | wzDomain
  deriving DecidableEq, Repr

/-- What a field's string is for. -/
def FieldName.owner : FieldName → Owner
  | wzUserName => .username
  | wzPassword => .password
  | wzDomain => .domain

/-- The fields, each with its string or `NULL`. -/
abbrev Fields := FieldName → Option Ptr

/-- What the methods do besides working on memory. -/
inductive FieldOp where
  | get (n : FieldName)
  | set (n : FieldName) (p : Option Ptr)
  /-- `GetComputerNameW`, into an array of the caller's. -/
  | getComputerNameW
  deriving DecidableEq, Repr

@[reducible] def FieldOp.Resp : FieldOp → Type
  | get _ => Option Ptr
  | set _ _ => Unit
  | getComputerNameW => Option Wide

/-- A method. -/
abbrev Method (α : Type) : Type := MemProg Owner FieldOp.Resp Empty α

def getField (n : FieldName) : Method (Option Ptr) := ext (FieldOp.get n)

def setField (n : FieldName) (p : Option Ptr) : Method Unit := ext (FieldOp.set n p)

def getComputerNameW : Method (Option Wide) := ext FieldOp.getComputerNameW

/-- `if (field != NULL) { free(field); field = NULL; }` -/
def freeField (n : FieldName) : Method Unit := do
  match ← getField n with
  | some p =>
    free p
    setField n none
  | none => return

/-- The same with a password, which is overwritten first. -/
def wipeField (n : FieldName) : Method Unit := do
  match ← getField n with
  | some p =>
    let len ← wcslen p
    let size ← toSizeT (len * sizeofWchar)
    store p (List.replicate size 0)
    free p
    setField n none
  | none => return

/-- `ResetCredentials`. -/
def resetCredentials : Method Unit := do
  freeField .wzUserName
  wipeField .wzPassword
  freeField .wzDomain

/-- A new string. -/
def newString (owner : Owner) (str : Wide) : Method (Option Ptr) := do
  match ← alloc owner false (sizeofWchar * (str.length + 1)) with
  | some p =>
    store p (wideBytes (str ++ [0]))
    return some p
  | none => return none

/-- `field = _wcsdup(sz)`. -/
def dupField (n : FieldName) (sz : Ptr) : Method Unit := do
  let str ← scanWide sz wideSpace
  setField n (← newString n.owner str)

/-- `GotCredentials`. -/
def gotCredentials : Method Bool := do
  let wzUserName ← getField .wzUserName
  let wzPassword ← getField .wzPassword
  let wzDomain ← getField .wzDomain
  return wzUserName.isSome && wzPassword.isSome && wzDomain.isSome

/-- The domain of `SetCredentials`.  Without one, the name of the computer stands for it. -/
def setDomain : Option Ptr → Method Unit
  | some wzDomain => dupField .wzDomain wzDomain
  | none => do
    match ← getComputerNameW with
    | some wsz => setField .wzDomain (← newString .domain wsz)
    | none => return

/-- `SetCredentials`. -/
def setCredentials (wzUserName wzPassword : Ptr) (wzDomain : Option Ptr) : Method Unit := do
  resetCredentials
  dupField .wzUserName wzUserName
  dupField .wzPassword wzPassword
  setDomain wzDomain
  if !(← gotCredentials) then resetCredentials

/-- `OVirtProvider::OnCredentialsArrivial`. -/
def onCredentialsArrivial : CredentialsChannel.Listener FieldOp.Resp Empty := setCredentials

/-! ## What it runs on -/

/-- The name of a computer: `MAX_COMPUTERNAME_LENGTH` units at most, and then its NUL. -/
structure ComputerName where
  name : Wide
  length_le : name.length ≤ 15
  ne_zero : ∀ c ∈ name, c ≠ 0

/-- What the provider meets in one step: its allocator, what is in memory, whether anyone listens,
and what the computer is called, if the system says. -/
structure StepEnv where
  allocates : ℕ → ℕ → Bool
  garbage : ℕ → Memory
  listening : Bool
  computerName : Option ComputerName

namespace StepEnv

variable (env : StepEnv)

def listener : Option (CredentialsChannel.Listener FieldOp.Resp Empty) :=
  if env.listening then some onCredentialsArrivial else none

/-- The allocator counts from the start of the step, when `base` allocations had been tried. -/
def machine (base : ℕ) : Machine Owner FieldOp.Resp Fields where
  allocates n size := env.allocates (n - base) size
  garbage := env.garbage
  ext
    | .get n, fields => (fields n, fields)
    | .set n p, fields => ((), Function.update fields n p)
    | .getComputerNameW, fields => (env.computerName.map (·.name), fields)

/-- `CredBuf` with a message in it. -/
def credBuf (garbage : Memory) (message : Bytes) : Object Owner where
  owner := .buffer
  size := 1024
  readable := message.length
  data := garbage.write 0 message
  live := true

end StepEnv

/-- A user name and a password, as bytes, that fit the buffer with the length of the user name. -/
structure Login where
  username : Bytes
  password : Bytes
  length_le : 4 + username.length + password.length ≤ 1024

/-- The message that carries them. -/
def Login.message (login : Login) : Bytes :=
  packBe32 login.username.length ++ (login.username ++ login.password)

/-- What happens to the provider. -/
inductive Step where
  /-- A message is received, with the user name whose length it declares. -/
  | message (env : StepEnv) (login : Login)
  /-- The credentials are to be forgotten. -/
  | reset (env : StepEnv)

/-- The provider's memory and its fields. -/
abbrev State := MState Owner Fields

/-- A message is put into its buffer. -/
def receive (s : State) (env : StepEnv) (login : Login) : State :=
  { s with heap := s.heap.push (StepEnv.credBuf (env.garbage s.heap.next) login.message) }

def step (dec : Utf8Decoder) (s : State) : Step → State
  | .message env login =>
    ((CredentialsChannel.parseCredentialsBuffer dec env.listener ⟨s.heap.next, 0⟩
      login.message.length).run (env.machine s.heap.attempts).handle (receive s env login)).2
  | .reset env => (resetCredentials.run (env.machine s.heap.attempts).handle s).2

def start : State := ⟨Heap.empty, fun _ ↦ none⟩

/-- The state after some steps. -/
def exec (dec : Utf8Decoder) (steps : List Step) : State := steps.foldl (step dec) start

/-- If memory was for a password, it is freed with zeros in it. -/
def Clean (r : Released Owner) : Prop := r.owner = .password → ∀ b ∈ r.bytes, b = 0

/-- So it is with all that was freed. -/
def Wiped (s : State) : Prop := ∀ r ∈ s.heap.released, Clean r

/-- Nothing is left of a string once half of its bytes are wiped. -/
def Short (q : Wide) : Prop := (∀ c ∈ q.head?, c < 0x100) ∧ ∀ c ∈ q.tail, c = 0

/-- The password of this step is wiped from memory: there was no memory to put it in, or it is
short. -/
def Covered (dec : Utf8Decoder) : Step → Prop
  | .message env login =>
    env.allocates 0 (2 * (login.username.length + 1)) = false ∨
      env.allocates 1 (2 * (login.password.length + 1)) = false ∨ Short (dec.decode login.password)
  | .reset _ => True

/-! ## The string -/

theorem unit_eq_zero_iff (c : UInt16) :
    UInt8.ofNat c.toNat = 0 ∧ UInt8.ofNat (c.toNat / 0x100) = 0 ↔ c = 0 := by
  have hc : c.toNat < 2 ^ 16 := c.toNat_lt
  rw [← UInt8.toNat_inj, ← UInt8.toNat_inj, ← UInt16.toNat_inj]
  simp only [UInt8.toNat_ofNat', UInt8.toNat_zero, UInt16.toNat_zero]
  omega

theorem high_eq_zero_iff (c : UInt16) : UInt8.ofNat (c.toNat / 0x100) = 0 ↔ c < 0x100 := by
  have hc : c.toNat < 2 ^ 16 := c.toNat_lt
  rw [← UInt8.toNat_inj, UInt16.lt_iff_toNat_lt, show UInt16.toNat 0x100 = 0x100 from rfl]
  simp only [UInt8.toNat_ofNat', UInt8.toNat_zero]
  omega

theorem wideBytes_eq_zero_iff (w : Wide) : (∀ b ∈ wideBytes w, b = 0) ↔ ∀ c ∈ w, c = 0 := by
  induction w with
  | nil => simp [wideBytes]
  | cons c w ih =>
    rw [List.forall_mem_cons, ← unit_eq_zero_iff c, ← ih, wideBytes, List.flatMap_cons, ← wideBytes,
      List.forall_mem_append, List.forall_mem_cons, List.forall_mem_singleton]

/-- Of two units or more, the last one stays. -/
theorem not_wiped {v : Wide} (h : 2 ≤ (v.takeWhile (· ≠ 0)).length) :
    ¬ ∀ b ∈ wiped v, b = 0 := by
  intro hzero
  obtain ⟨init, last, hlast⟩ : ∃ init last, v.takeWhile (· ≠ 0) = init ++ [last] :=
    ⟨_, _, (List.dropLast_append_getLast (List.length_pos_iff.mp (by omega))).symm⟩
  have hne : last ≠ 0 := by
    have hmem : last ∈ v.takeWhile (· ≠ 0) := hlast ▸ List.mem_concat_self
    simpa using List.mem_takeWhile_imp hmem
  have hv : wideBytes v = wideBytes init ++ wideBytes (last :: v.dropWhile (· ≠ 0)) := by
    conv_lhs => rw [← List.takeWhile_append_dropWhile (p := (· ≠ 0)) (l := v), hlast]
    rw [List.append_assoc, wideBytes_append, List.singleton_append]
  have hle : (v.takeWhile (· ≠ 0)).length ≤ (wideBytes init).length := by
    rw [hlast, List.length_append, List.length_singleton] at h ⊢
    rw [length_wideBytes]
    omega
  rw [wiped, hv, List.drop_append_of_le_length hle] at hzero
  refine hne ((wideBytes_eq_zero_iff (last :: v.dropWhile (· ≠ 0))).mp (fun b hb ↦ ?_) last ?_)
  · exact hzero b (List.mem_append_right _ (List.mem_append_right _ hb))
  · exact List.mem_cons_self

theorem append_zeros_iff (w : Wide) (k : ℕ) :
    (∀ c ∈ w ++ List.replicate k 0, c = 0) ↔ ∀ c ∈ w, c = 0 := by
  rw [List.forall_mem_append, and_iff_left fun c hc ↦ (List.mem_replicate.mp hc).2]

/-- **Wiping half of a string is enough for a short one**, and for no other. -/
theorem wiped_padded_iff {q : Wide} {n : ℕ} :
    (∀ b ∈ wiped (padded q n), b = 0) ↔ Short q := by
  rcases q with _ | ⟨c, q⟩
  · -- there is nothing in the string
    rw [wiped, takeWhile_padded, List.takeWhile_nil, List.length_nil, List.replicate_zero,
      List.nil_append, List.drop_zero, wideBytes_eq_zero_iff, padded, append_zeros_iff]
    simp [Short]
  · have hpad : padded (c :: q) n = c :: (q ++ List.replicate (n - (c :: q).length) 0) := rfl
    rw [Short, List.head?_cons, List.tail_cons]
    by_cases hc : c = 0
    · -- nothing is wiped
      rw [wiped, takeWhile_padded, List.takeWhile_cons_of_neg (by simpa using hc), List.length_nil,
        List.replicate_zero, List.nil_append, List.drop_zero, wideBytes_eq_zero_iff, hpad,
        List.forall_mem_cons, append_zeros_iff]
      simp [hc]
    · by_cases hq : q.takeWhile (· ≠ 0) = []
      · -- the low byte of the first unit is wiped
        rw [wiped, takeWhile_padded, List.takeWhile_cons_of_pos (by simpa using hc), hq,
          List.length_singleton, hpad, wideBytes, List.flatMap_cons, ← wideBytes,
          List.forall_mem_append]
        simp only [List.cons_append, List.nil_append, List.drop_succ_cons, List.drop_zero,
          List.forall_mem_cons, high_eq_zero_iff, wideBytes_eq_zero_iff, append_zeros_iff]
        simp
      · have hlong : 2 ≤ ((padded (c :: q) n).takeWhile (· ≠ 0)).length := by
          rw [takeWhile_padded, List.takeWhile_cons_of_pos (by simpa using hc), List.length_cons]
          have := List.length_pos_iff.mpr hq
          omega
        refine iff_of_false (not_wiped hlong) fun hshort ↦ hq ?_
        rcases q with _ | ⟨d, q⟩
        · rfl
        · exact List.takeWhile_cons_of_neg (by simpa using hshort.2 d List.mem_cons_self)

/-- The password of the agent's block, with its NUL, is short if it is one unit below `U+0100`. -/
theorem short_block_iff (dec : Utf8Decoder) {t : Text} (ht : ∀ c ∈ t, IsChar c) :
    Short (dec.decode (encodeUtf8 t ++ [0])) ↔ dec.wide t = [] ∨ ∃ c < 0x100, dec.wide t = [c] := by
  have hnul : dec.decode [0] = [0] := dec.decode_utf8Char 0 (by decide) (by decide)
  have hne := dec.wide_ne_zero ht
  rw [dec.decode_encodeUtf8_append ht, hnul]
  revert hne
  rcases dec.wide t with _ | ⟨c, _ | ⟨d, w⟩⟩ <;> intro hne
  · simp [Short]
  · simp [Short]
  · have hd : d ≠ 0 := hne d (by simp)
    simp [Short, hd]

/-! ## The copies -/

/-- Every field is `NULL` or the start of a string of its own. -/
def Inv (s : State) : Prop :=
  ∀ n p, s.rest n = some p → ∃ i w, p = ⟨i, 0⟩ ∧ i < s.heap.next ∧ (∀ c ∈ w, c ≠ 0) ∧
    w.length < wideSpace ∧ s.heap.Full i n.owner (wideBytes (w ++ [0]))

/-- No field points into object `j`. -/
def Avoids (s : State) (j : ℕ) : Prop := ∀ n p, s.rest n = some p → p.object ≠ j

/-- What a method changes: the fields and what they point to, and passwords are wiped before they
are freed. -/
structure Changes (s t : State) : Prop where
  kept : ∀ j < s.heap.next, Avoids s j → Avoids t j ∧ t.heap.object j = s.heap.object j
  next : s.heap.next ≤ t.heap.next
  released : ∃ rs, t.heap.released = s.heap.released ++ rs ∧ ∀ r ∈ rs, Clean r

section Copies

variable {s t u : State} {n : FieldName} {i j : ℕ} {p : Ptr} {r : Released Owner} {str w : Wide}

theorem FieldName.owner_inj {n n' : FieldName} (h : n.owner = n'.owner) : n = n' := by
  cases n <;> cases n' <;> first | rfl | cases h

theorem Changes.refl (s : State) : Changes s s where
  kept _ _ h := ⟨h, rfl⟩
  next := le_rfl
  released := ⟨[], (List.append_nil _).symm, by simp⟩

theorem Changes.trans (h : Changes s t) (h' : Changes t u) : Changes s u where
  kept j hj hav := by
    obtain ⟨hav₁, hobj₁⟩ := h.kept j hj hav
    obtain ⟨hav₂, hobj₂⟩ := h'.kept j (hj.trans_le h.next) hav₁
    exact ⟨hav₂, hobj₂.trans hobj₁⟩
  next := h.next.trans h'.next
  released := by
    obtain ⟨rs, hrs, hclean⟩ := h.released
    obtain ⟨rs', hrs', hclean'⟩ := h'.released
    refine ⟨rs ++ rs', by rw [hrs', hrs, List.append_assoc], ?_⟩
    exact List.forall_mem_append.mpr ⟨hclean, hclean'⟩

/-- Two fields do not share a string. -/
theorem Inv.avoids (h : Inv s) (hn : s.rest n = some ⟨i, 0⟩) {n' : FieldName} (hne : n' ≠ n)
    (hp : s.rest n' = some p) : p.object ≠ i := by
  obtain ⟨i₁, w₁, hi₁, -, -, -, d₁, hd₁, -⟩ := h n _ hn
  obtain ⟨i₂, w₂, rfl, -, -, -, d₂, hd₂, -⟩ := h n' p hp
  obtain rfl : i = i₁ := congrArg Ptr.object hi₁
  rintro rfl
  rw [hd₁] at hd₂
  exact hne (FieldName.owner_inj (congrArg Object.owner (Option.some.inj hd₂)).symm)

/-- A field set to `p`. -/
def withField (s : State) (n : FieldName) (p : Option Ptr) : State :=
  { s with rest := Function.update s.rest n p }

theorem withField_cases {n' : FieldName} {q : Option Ptr} (h : (withField s n q).rest n' = some p) :
    (n' = n ∧ q = some p) ∨ (n' ≠ n ∧ s.rest n' = some p) := by
  by_cases hne : n' = n
  · subst hne
    exact .inl ⟨rfl, (Function.update_self (f := s.rest) ..).symm.trans h⟩
  · exact .inr ⟨hne, (Function.update_of_ne hne (f := s.rest) ..).symm.trans h⟩

/-- A field is given up, and so is its string. -/
theorem Inv.cleared (h : Inv s) (hn : s.rest n = some ⟨i, 0⟩) (ht : SameBut i s t)
    (hrel : t.heap.released = s.heap.released ++ [r]) (hr : Clean r) :
    Changes s (withField t n none) ∧ Inv (withField t n none) := by
  have hother {n' : FieldName} {p : Ptr} (hp : (withField t n none).rest n' = some p) :
      n' ≠ n ∧ s.rest n' = some p := by
    rw [← ht.rest]
    exact (withField_cases hp).resolve_left fun h ↦ by cases h.2
  refine ⟨⟨fun j _ hav ↦ ⟨fun n' p hp ↦ hav n' p (hother hp).2, ht.object j ?_⟩, ht.next.ge,
    [r], hrel, by simpa using hr⟩, fun n' p hp ↦ ?_⟩
  · exact (hav n _ hn).symm
  · obtain ⟨hne, hp⟩ := hother hp
    have hav := h.avoids hn hne hp
    obtain ⟨j, w, rfl, hj, hw, hlen, hfull⟩ := h n' p hp
    exact ⟨j, w, rfl, hj.trans_eq ht.next.symm, hw, hlen, ht.holds hfull hav⟩

variable {env : StepEnv} {base : ℕ} {P Q : Method Unit}

/-- From `s`, a method ends, and what it changes it may change. -/
def Behaves (env : StepEnv) (base : ℕ) (s : State) (P : Method Unit) : Prop :=
  ∃ t, P.run (env.machine base).handle s = (.ok (), t) ∧ Changes s t ∧ Inv t

theorem behaves_return (h : Inv s) : Behaves env base s (pure ()) := ⟨s, rfl, .refl s, h⟩

theorem Behaves.bind (hP : Behaves env base s P)
    (hQ : ∀ t, Changes s t → Inv t → Behaves env base t Q) :
    Behaves env base s (P >>= fun _ ↦ Q) := by
  obtain ⟨t, hrun, hch, hinv⟩ := hP
  obtain ⟨u, hrun', hch', hinv'⟩ := hQ t hch hinv
  exact ⟨u, by rw [run_bind_ok hrun, hrun'], hch.trans hch', hinv'⟩

/-- Nothing is changed by what is read. -/
theorem Behaves.of_read {α : Type} {p : Method α} {x : α} {f : α → Method Unit}
    (hp : p.run (env.machine base).handle s = (.ok x, s)) (hf : Behaves env base s (f x)) :
    Behaves env base s (p >>= f) := by
  obtain ⟨t, hrun, ht⟩ := hf
  exact ⟨t, by rw [run_bind_ok hp, hrun], ht⟩

theorem run_getField :
    (getField n).run (env.machine base).handle s = (.ok (s.rest n), s) := rfl

theorem run_setField (p : Option Ptr) :
    (setField n p).run (env.machine base).handle s = (.ok (), withField s n p) := rfl

/-- A field's string is freed. -/
theorem exists_run_freeField (env : StepEnv) (base : ℕ) {bs : Bytes}
    (hp : s.rest n = some ⟨i, 0⟩) (hfull : s.heap.Full i n.owner bs) :
    ∃ t, (freeField n).run (env.machine base).handle s = (.ok (), withField t n none) ∧
      SameBut i s t ∧ t.heap.released = s.heap.released ++ [⟨n.owner, bs⟩] := by
  obtain ⟨t, hrun, hsame, hrel⟩ := hfull.exists_run_free (m := env.machine base) (ε := Empty)
  refine ⟨t, ?_, hsame, hrel⟩
  rw [freeField, run_bind_ok run_getField, hp]
  simp only
  rw [run_bind_ok hrun, run_setField]

theorem behaves_freeField (h : Inv s) (hn : n ≠ .wzPassword) :
    Behaves env base s (freeField n) := by
  cases hp : s.rest n with
  | none => exact .of_read run_getField (by rw [hp]; exact behaves_return h)
  | some p =>
    obtain ⟨i, w, rfl, -, -, -, hfull⟩ := h n p hp
    obtain ⟨t, hrun, hsame, hrel⟩ := exists_run_freeField env base hp hfull
    have hclean : Clean ⟨n.owner, wideBytes (w ++ [0])⟩ :=
      fun howner ↦ absurd (FieldName.owner_inj howner) hn
    exact ⟨_, hrun, h.cleared hp hsame hrel hclean⟩

/-- A field's string is overwritten, up to its NUL, and freed. -/
theorem exists_run_wipeField (env : StepEnv) (base : ℕ) (hp : s.rest n = some ⟨i, 0⟩)
    (hw : ∀ c ∈ w, c ≠ 0) (hlen : w.length < wideSpace)
    (hfull : s.heap.Full i n.owner (wideBytes (w ++ [0]))) :
    ∃ t, (wipeField n).run (env.machine base).handle s = (.ok (), withField t n none) ∧
      SameBut i s t ∧ t.heap.released =
        s.heap.released ++ [⟨n.owner, List.replicate (2 * w.length) 0 ++ wideBytes [0]⟩] := by
  have hstr : (w ++ [0]).takeWhile (· ≠ 0) = w := by
    rw [List.takeWhile_append_of_pos (by simpa using hw), List.takeWhile_cons_of_neg (by simp),
      List.append_nil]
  have hwcslen := run_wcslen (m := env.machine base) (ε := Empty) hfull (by simp)
    (by rw [List.length_append]; exact hlen)
  rw [hstr] at hwcslen
  have hsize : (w.length * sizeofWchar : Int).toNat = 2 * w.length := by
    rw [sizeofWchar]
    omega
  have hspace : 0 ≤ (w.length * sizeofWchar : Int) ∧ (w.length * sizeofWchar : Int) < 2 ^ 32 := by
    rw [wideSpace] at hlen
    rw [sizeofWchar]
    omega
  have hsplit : s.heap.Holds i n.owner (wideBytes (w ++ [0])).length
      ([] ++ (wideBytes w ++ wideBytes [0])) := by
    rwa [List.nil_append, ← wideBytes_append]
  have hzeros : (List.replicate (2 * w.length) (0 : UInt8)).length = (wideBytes w).length := by
    rw [List.length_replicate, length_wideBytes]
  obtain ⟨t₁, hrun₁, hholds₁, hsame₁, hrel₁⟩ := hsplit.exists_run_store (m := env.machine base)
    (ε := Empty) (show (0 : Int) = ([] : Bytes).length from rfl) hzeros
  have hfull₁ : t₁.heap.Full i n.owner (List.replicate (2 * w.length) 0 ++ wideBytes [0]) := by
    refine Heap.Holds.full hholds₁ ?_
    simp
  obtain ⟨t₂, hrun₂, hsame₂, hrel₂⟩ := hfull₁.exists_run_free (m := env.machine base)
    (ε := Empty)
  rw [hrel₁] at hrel₂
  refine ⟨t₂, ?_, hsame₁.trans hsame₂, hrel₂⟩
  rw [wipeField, run_bind_ok run_getField, hp]
  simp only
  rw [run_bind_ok hwcslen, run_bind_ok (run_toSizeT hspace.1 hspace.2), hsize,
    run_bind_ok hrun₁, run_bind_ok hrun₂, run_setField]

/-- **A copy is wiped in full.** -/
theorem behaves_wipeField (h : Inv s) : Behaves env base s (wipeField n) := by
  cases hp : s.rest n with
  | none => exact .of_read run_getField (by rw [hp]; exact behaves_return h)
  | some p =>
    obtain ⟨i, w, rfl, -, hw, hlen, hfull⟩ := h n p hp
    obtain ⟨t, hrun, hsame, hrel⟩ := exists_run_wipeField env base hp hw hlen hfull
    refine ⟨_, hrun, h.cleared hp hsame hrel fun _ b hb ↦ ?_⟩
    rcases List.mem_append.mp hb with hb | hb
    · exact (List.mem_replicate.mp hb).2
    · simpa [wideBytes] using hb

theorem behaves_resetCredentials (h : Inv s) : Behaves env base s resetCredentials :=
  (behaves_freeField h (by decide)).bind fun _ _ h ↦
    (behaves_wipeField h).bind fun _ _ h ↦ behaves_freeField h (by decide)

/-- The string `str` is read from `p`, which no field points to. -/
structure Readable (s : State) (p : Ptr) (str : Wide) : Prop where
  lt_next : p.object < s.heap.next
  avoids : Avoids s p.object
  holds : ∃ o size as v, s.heap.Holds p.object o size (as ++ wideBytes v) ∧
    p.offset = as.length ∧ 0 ∈ v ∧ v.length ≤ wideSpace ∧ v.takeWhile (· ≠ 0) = str

theorem Readable.changes (h : Readable s p str) (ht : Changes s t) : Readable t p str := by
  obtain ⟨hav, hobj⟩ := ht.kept _ h.lt_next h.avoids
  obtain ⟨o, size, as, v, hholds, hv⟩ := h.holds
  refine ⟨h.lt_next.trans_le ht.next, hav, o, size, as, v, ?_, hv⟩
  rwa [Heap.Holds, hobj]

theorem Readable.run_scanWide (h : Readable s p str) :
    (scanWide p wideSpace : Method _).run (env.machine base).handle s = (.ok str, s) := by
  obtain ⟨o, size, as, v, hholds, hoff, hnul, hlen, rfl⟩ := h.holds
  exact hholds.run_scanWide hoff hnul hlen

theorem Readable.ne_zero (h : Readable s p str) : ∀ c ∈ str, c ≠ 0 := by
  obtain ⟨-, -, -, v, -, -, -, -, rfl⟩ := h.holds
  exact fun c hc ↦ by simpa using List.mem_takeWhile_imp hc

theorem Readable.length_lt (h : Readable s p str) : str.length < wideSpace := by
  obtain ⟨-, -, -, v, -, -, hnul, hlen, rfl⟩ := h.holds
  exact (length_takeWhile_lt hnul).trans_le hlen

/-- Where there is memory, a new string is an object of its own. -/
theorem exists_run_newString (o : Owner) (str : Wide)
    (h : (env.machine base).allocates s.heap.attempts (sizeofWchar * (str.length + 1)) = true) :
    ∃ t, (newString o str).run (env.machine base).handle s = (.ok (some ⟨s.heap.next, 0⟩), t) ∧
      t.heap.Full s.heap.next o (wideBytes (str ++ [0])) ∧
      (∀ j < s.heap.next, t.heap.object j = s.heap.object j) ∧
      t.heap.next = s.heap.next + 1 ∧ t.heap.released = s.heap.released ∧ t.rest = s.rest ∧
      t.heap.attempts = s.heap.attempts + 1 ∧ t.heap.faults = s.heap.faults := by
  obtain ⟨t₁, bs, hrun₁, hfull₁, hbs, -, hobj₁, hnext₁, hatt₁, hfaults₁, hrel₁, hrest₁⟩ :=
    exists_run_alloc (o := o) (ε := Empty) false h
  have hsplit : t₁.heap.Holds s.heap.next o bs.length ([] ++ (bs ++ [])) := by
    rwa [List.nil_append, List.append_nil]
  have hsize : (wideBytes (str ++ [0])).length = bs.length := by
    rw [hbs, length_wideBytes, List.length_append]
    rfl
  obtain ⟨t₂, hrun₂, hholds₂, hsame₂, hrel₂⟩ := hsplit.exists_run_store (m := env.machine base)
    (ε := Empty) (show (0 : Int) = ([] : Bytes).length from rfl) hsize
  rw [List.nil_append, List.append_nil] at hholds₂
  refine ⟨t₂, ?_, hholds₂.full hsize, fun j hj ↦ ?_, hsame₂.next.trans hnext₁, hrel₂.trans hrel₁,
    hsame₂.rest.trans hrest₁, hsame₂.attempts.trans hatt₁, hsame₂.faults.trans hfaults₁⟩
  · rw [newString, run_bind_ok hrun₁]
    simp only
    rw [run_bind_ok hrun₂]
    rfl
  · rw [hsame₂.object j hj.ne, hobj₁ j hj.ne]

/-- A field is given a new string. -/
theorem behaves_setNew (h : Inv s) (hstr : ∀ c ∈ str, c ≠ 0) (hlen : str.length < wideSpace) :
    Behaves env base s (newString n.owner str >>= fun p ↦ setField n p) := by
  cases halloc : (env.machine base).allocates s.heap.attempts (sizeofWchar * (str.length + 1)) with
  | false =>
    have hother {n' : FieldName} {p : Ptr}
        (hp : (withField { s with heap := s.heap.tried } n none).rest n' = some p) :
        s.rest n' = some p := by
      rcases withField_cases hp with ⟨-, hp⟩ | ⟨-, hp⟩
      · cases hp
      · exact hp
    refine ⟨_, ?_, ⟨fun j _ hav ↦ ⟨fun n' p hp ↦ hav n' p (hother hp), rfl⟩, le_rfl, [],
      (List.append_nil _).symm, by simp⟩, fun n' p hp ↦ h n' p (hother hp)⟩
    rw [run_bind, newString, run_bind_ok (run_alloc_fail n.owner false halloc)]
    rfl
  | true =>
    obtain ⟨t, hrun, hnew, hobj, hnext, hrel, hrest, -, -⟩ :=
      exists_run_newString n.owner str halloc
    -- a field is the new string, or it is as it was
    have hcases {n' : FieldName} {p : Ptr}
        (hp : (withField t n (some ⟨s.heap.next, 0⟩)).rest n' = some p) :
        (n' = n ∧ p = ⟨s.heap.next, 0⟩) ∨ s.rest n' = some p := by
      rcases withField_cases hp with ⟨hn, hp⟩ | ⟨-, hp⟩
      · exact .inl ⟨hn, (Option.some.inj hp).symm⟩
      · exact .inr (by rwa [hrest] at hp)
    refine ⟨withField t n (some ⟨s.heap.next, 0⟩), ?_,
      ⟨fun j hj hav ↦ ⟨fun n' p hp ↦ ?_, hobj j hj⟩,
        (Nat.le_succ _).trans_eq hnext.symm, [], ?_, by simp⟩, fun n' p hp ↦ ?_⟩
    · rw [run_bind_ok hrun]
      rfl
    · rcases hcases hp with ⟨-, rfl⟩ | hp
      · exact hj.ne'
      · exact hav n' p hp
    · rw [List.append_nil, withField, hrel]
    · rcases hcases hp with ⟨rfl, rfl⟩ | hp
      · exact ⟨s.heap.next, str, rfl, (Nat.lt_succ_self _).trans_eq hnext.symm, hstr, hlen, hnew⟩
      · obtain ⟨i, w, rfl, hi, hw, hwlen, hfull⟩ := h n' p hp
        refine ⟨i, w, rfl, (hi.trans (Nat.lt_succ_self _)).trans_eq hnext.symm, hw, hwlen, ?_⟩
        rwa [Heap.Full, Heap.Holds, withField, hobj i hi]

theorem behaves_dupField (h : Inv s) (hp : Readable s p str) :
    Behaves env base s (dupField n p) :=
  .of_read hp.run_scanWide (behaves_setNew h hp.ne_zero hp.length_lt)

theorem behaves_setDomain {szDomain : Option Ptr} (h : Inv s)
    (hd : ∀ d ∈ szDomain, ∃ w, Readable s d w) : Behaves env base s (setDomain szDomain) := by
  cases szDomain with
  | some d =>
    obtain ⟨w, hw⟩ := hd d rfl
    exact behaves_dupField h hw
  | none =>
    refine .of_read (x := env.computerName.map (·.name)) rfl ?_
    cases env.computerName with
    | none => exact behaves_return h
    | some computer =>
      have hlen := computer.length_le
      exact behaves_setNew (n := .wzDomain) h computer.ne_zero (hlen.trans_lt (by decide))

/-- **The copies are made, or they are given up again**, and what was copied before is wiped. -/
theorem behaves_setCredentials {szUserName szPassword : Ptr} {szDomain : Option Ptr} {q : Wide}
    (h : Inv s) (hu : Readable s szUserName str) (hp : Readable s szPassword q)
    (hd : ∀ d ∈ szDomain, ∃ w, Readable s d w) :
    Behaves env base s (setCredentials szUserName szPassword szDomain) := by
  refine (behaves_resetCredentials h).bind fun t₁ hch₁ h₁ ↦ ?_
  refine (behaves_dupField h₁ (hu.changes hch₁)).bind fun t₂ hch₂ h₂ ↦ ?_
  have hch₂ := hch₁.trans hch₂
  refine (behaves_dupField h₂ (hp.changes hch₂)).bind fun t₃ hch₃ h₃ ↦ ?_
  have hch₃ := hch₂.trans hch₃
  refine (behaves_setDomain h₃ fun d hmem ↦ ?_).bind fun t₄ hch₄ h₄ ↦ ?_
  · obtain ⟨w, hw⟩ := hd d hmem
    exact ⟨w, hw.changes hch₃⟩
  · refine .of_read (p := gotCredentials) rfl ?_
    split
    · exact behaves_resetCredentials h₄
    · exact behaves_return h₄

end Copies

/-! ## A message -/

section Message

variable {env : StepEnv} {base : ℕ} {s t : State} {i j : ℕ} {v w q : Wide}

/-- The fields are as good as before where their strings are as before. -/
theorem Inv.of_object (h : Inv s) (hrest : t.rest = s.rest) (hnext : s.heap.next ≤ t.heap.next)
    (hobj : ∀ k < s.heap.next, Avoids t k ∨ t.heap.object k = s.heap.object k) : Inv t := by
  intro n p hp
  have hp' := hp
  rw [hrest] at hp'
  obtain ⟨k, w, rfl, hk, hw, hlen, hfull⟩ := h n p hp'
  refine ⟨k, w, rfl, hk.trans_le hnext, hw, hlen, ?_⟩
  rw [Heap.Full, Heap.Holds, (hobj k hk).resolve_left fun hav ↦ hav n _ hp rfl]
  exact hfull

theorem Avoids.of_rest (h : Avoids s i) (ht : t.rest = s.rest) : Avoids t i :=
  fun n p hp ↦ h n p (ht ▸ hp)

theorem behaves_notify (env : StepEnv) (base : ℕ) {szUserName szPassword : Ptr}
    {szDomain : Option Ptr} {u w : Wide} (h : Inv s) (hu : Readable s szUserName u)
    (hp : Readable s szPassword w) (hd : ∀ d ∈ szDomain, ∃ w, Readable s d w) :
    Behaves env base s (notify env.listener szUserName szPassword szDomain) := by
  rw [StepEnv.listener]
  split
  · exact behaves_setCredentials h hu hp hd
  · exact behaves_return h

/-- The two strings, which no field points to. -/
structure Strings (s : State) (i j : ℕ) (v q : Wide) : Prop where
  username : s.heap.Full i .username (wideBytes v)
  password : s.heap.Full j .password (wideBytes q)
  zero_mem_username : 0 ∈ v
  zero_mem_password : 0 ∈ q
  username_le : v.length ≤ wideSpace
  password_le : q.length ≤ wideSpace
  ne : i ≠ j
  username_lt : i < s.heap.next
  password_lt : j < s.heap.next
  avoids_username : Avoids s i
  avoids_password : Avoids s j

theorem Strings.changes (h : Strings s i j v q) (ht : Changes s t) : Strings t i j v q := by
  obtain ⟨hav, hobj⟩ := ht.kept i h.username_lt h.avoids_username
  obtain ⟨hav', hobj'⟩ := ht.kept j h.password_lt h.avoids_password
  refine { h with
    username := ?_
    password := ?_
    username_lt := h.username_lt.trans_le ht.next
    password_lt := h.password_lt.trans_le ht.next
    avoids_username := hav
    avoids_password := hav' }
  · rw [Heap.Full, Heap.Holds, hobj]
    exact h.username
  · rw [Heap.Full, Heap.Holds, hobj']
    exact h.password

theorem Strings.readable_username (h : Strings s i j v q) :
    Readable s ⟨i, 0⟩ (v.takeWhile (· ≠ 0)) :=
  ⟨h.username_lt, h.avoids_username, .username, (wideBytes v).length, [], v, h.username, rfl,
    h.zero_mem_username, h.username_le, rfl⟩

theorem Strings.readable_password (h : Strings s i j v q) :
    Readable s ⟨j, 0⟩ (q.takeWhile (· ≠ 0)) :=
  ⟨h.password_lt, h.avoids_password, .password, (wideBytes q).length, [], q, h.password, rfl,
    h.zero_mem_password, h.password_le, rfl⟩

/-- What follows the end of the user name is a string too. -/
theorem Strings.readable_domain (h : Strings s i j (v ++ 0 :: w) q) (hw : 0 ∈ w) :
    Readable s ⟨i, 2 * v.length + 2⟩ (w.takeWhile (· ≠ 0)) := by
  have hlen := h.username_le
  rw [List.length_append, List.length_cons] at hlen
  refine ⟨h.username_lt, h.avoids_username, .username, (wideBytes (v ++ 0 :: w)).length,
    wideBytes (v ++ [0]), w, ?_, ?_, hw, by omega, rfl⟩
  · rw [← wideBytes_append, List.append_assoc]
    exact h.username
  · rw [length_wideBytes, List.length_append]
    simp
    omega

/-- **The listener leaves the two strings alone**, and what it frees is wiped. -/
theorem exists_run_deliver (env : StepEnv) (base : ℕ) (h : Inv s) (hs : Strings s i j v q) :
    ∃ t v', (deliver env.listener ⟨i, 0⟩ ⟨j, 0⟩).run (env.machine base).handle s = (.ok (), t) ∧
      Inv t ∧ Strings t i j v' q ∧
      ∃ rs, t.heap.released = s.heap.released ++ rs ∧ ∀ r ∈ rs, Clean r := by
  obtain ⟨hu, hp, hv, hq, hvn, hqn, hij, hi, hj, havi, havj⟩ := id hs
  by_cases hnil : v.takeWhile (· ≠ 0) = [] ∨ q.takeWhile (· ≠ 0) = []
  · exact ⟨s, v, run_deliver_of_nil env.listener hu hv hvn hp hq hqn hnil, h, hs, [],
      (List.append_nil _).symm, by simp⟩
  · obtain ⟨hvne, hqne⟩ := not_or.mp hnil
    by_cases hat : 0x40 ∈ v.takeWhile (· ≠ 0)
    · obtain ⟨a, b, rfl, ha, hb⟩ := exists_split_at hat hv
      obtain ⟨t₁, hrun₁, hsame₁, hfull₁, hrel₁⟩ := exists_run_deliver_at (m := env.machine base)
        env.listener hu ha hb hvn hp hq hqn hqne
      have hs₁ : Strings t₁ i j (a ++ 0 :: b) q :=
        { hs with
          username := hfull₁
          password := hsame₁.holds hp hij.symm
          zero_mem_username := List.mem_append_right _ (by simp)
          username_le := by simpa using hvn
          username_lt := hi.trans_eq hsame₁.next.symm
          password_lt := hj.trans_eq hsame₁.next.symm
          avoids_username := havi.of_rest hsame₁.rest
          avoids_password := havj.of_rest hsame₁.rest }
      have hinv₁ : Inv t₁ := h.of_object hsame₁.rest hsame₁.next.ge fun k _ ↦ by
        by_cases hk : k = i
        · exact .inl (hk ▸ hs₁.avoids_username)
        · exact .inr (hsame₁.object k hk)
      have hdomain : ∀ d ∈ some (⟨i, 2 * a.length + 2⟩ : Ptr), ∃ w, Readable t₁ d w := by
        rintro d ⟨⟩
        exact ⟨_, hs₁.readable_domain hb⟩
      obtain ⟨t₂, hrun₂, hch₂, hinv₂⟩ := behaves_notify env base
        hinv₁ hs₁.readable_username hs₁.readable_password hdomain
      rw [← hrel₁]
      exact ⟨t₂, a ++ 0 :: b, hrun₁.trans hrun₂, hinv₂, hs₁.changes hch₂, hch₂.released⟩
    · have hnone : ∀ d ∈ (none : Option Ptr), ∃ w, Readable s d w := by simp
      obtain ⟨t, hrun, hch, hinv⟩ := behaves_notify env base h hs.readable_username
        hs.readable_password hnone
      rw [← run_deliver_of_notMem env.listener hu hv hvn hp hq hqn hvne hqne hat] at hrun
      exact ⟨t, v, hrun, hinv, hs.changes hch, hch.released⟩

/-- **Whether the password is wiped does not depend on the listener.** -/
theorem exists_run_deliver_free (env : StepEnv) (base : ℕ) (h : Inv s) (hs : Strings s i j v q) :
    ∃ t rs, (deliver env.listener ⟨i, 0⟩ ⟨j, 0⟩ >>= fun _ ↦ safeLocalFreeString ⟨i, 0⟩ >>= fun _ ↦
        safeLocalFreeString ⟨j, 0⟩).run (env.machine base).handle s = (.ok (), t) ∧
      t.heap.released = s.heap.released ++ rs ∧
      ((∀ r ∈ rs, Clean r) ↔ ∀ b ∈ wiped q, b = 0) ∧ Inv t := by
  obtain ⟨t₁, v', hrun₁, hinv₁, hs₁, rs, hrs, hclean⟩ := exists_run_deliver env base h hs
  obtain ⟨t₂, hrun₂, hobj₂, hnext₂, -, hrest₂, hrel₂⟩ :=
    exists_run_free_strings (m := env.machine base) (ε := Empty) hs₁.username
      hs₁.zero_mem_username hs₁.username_le hs₁.password hs₁.zero_mem_password hs₁.password_le
      hs₁.ne
  refine ⟨t₂, _, by rw [run_bind_ok hrun₁, hrun₂], by rw [hrel₂, hrs, List.append_assoc], ?_, ?_⟩
  · rw [List.forall_mem_append, and_iff_right hclean]
    simp [Clean]
  · refine hinv₁.of_object hrest₂ hnext₂.ge fun k _ ↦ ?_
    by_cases hki : k = i
    · exact .inl (hki ▸ hs₁.avoids_username.of_rest hrest₂)
    · by_cases hkj : k = j
      · exact .inl (hkj ▸ hs₁.avoids_password.of_rest hrest₂)
      · exact .inr (hobj₂ k hki hkj)

/-- No field points to an object that is still to come. -/
theorem Inv.avoids_of_le (h : Inv s) (hk : s.heap.next ≤ i) : Avoids s i := by
  intro n p hp
  obtain ⟨k, w, rfl, hlt, -⟩ := h n p hp
  exact (hlt.trans_le hk).ne

section Step

variable {dec : Utf8Decoder} {login : Login}

/-- The strings that were converted. -/
theorem strings_of_converted {u p : Bytes} (h : Converted dec u p s t) (hs : Inv s)
    (hlen : 4 + u.length + p.length ≤ 1024) :
    Strings t s.heap.next (s.heap.next + 1) (padded (dec.decode u) (u.length + 1))
      (padded (dec.decode p) (p.length + 1)) := by
  have hu := dec.length_le u
  have hp := dec.length_le p
  have hnext := h.next
  exact ⟨h.username, h.password, zero_mem_padded (by omega), zero_mem_padded (by omega),
    length_padded_le_wideSpace hu (by omega), length_padded_le_wideSpace hp (by omega),
    (Nat.lt_succ_self _).ne, by omega, by omega,
    (hs.avoids_of_le le_rfl).of_rest h.rest, (hs.avoids_of_le (Nat.le_succ _)).of_rest h.rest⟩

theorem length_message (login : Login) :
    login.message.length = 4 + login.username.length + login.password.length := by
  rw [Login.message, List.length_append, List.length_append, length_packBe32, Nat.add_assoc]

theorem received_receive :
    Received (receive s env login) s.heap.next login.username login.password where
  lt_next := Nat.lt_succ_self _
  length_le := login.length_le
  holds := by
    have hlen := login.length_le
    refine ⟨1024, packBe32 login.username.length, ⟨_, Heap.set_object_self, ?_,
      Memory.holds_write _ _ _⟩, length_packBe32 _, unpackBe32_packBe32 (by omega)⟩
    exact (length_message login).trans_le hlen

theorem inv_receive (h : Inv s) : Inv (receive s env login) :=
  h.of_object rfl (Nat.le_succ _) fun _ hk ↦ .inr (Heap.set_object_of_ne hk.ne)

/-- What is freed because of a message, and when it is wiped. -/
theorem exists_step_message (dec : Utf8Decoder) (env : StepEnv) (login : Login) (h : Inv s) :
    ∃ rs, (step dec s (.message env login)).heap.released = s.heap.released ++ rs ∧
      ((∀ r ∈ rs, Clean r) ↔ Covered dec (.message env login)) ∧
      Inv (step dec s (.message env login)) := by
  have hrec : Received (receive s env login) _ _ _ := received_receive
  have hinv : Inv (receive s env login) := inv_receive h
  have hfirst (size : ℕ) : (env.machine s.heap.attempts).allocates
      (receive s env login).heap.attempts size = env.allocates 0 size :=
    congrArg (env.allocates · size) (Nat.sub_self _)
  have hsecond (size : ℕ) : (env.machine s.heap.attempts).allocates
      ((receive s env login).heap.attempts + 1) size = env.allocates 1 size :=
    congrArg (env.allocates · size) (Nat.add_sub_cancel_left ..)
  rw [step, length_message, Covered]
  cases h₁ : env.allocates 0 (2 * (login.username.length + 1)) with
  | false =>
    rw [← hfirst] at h₁
    rw [run_parse_of_fail dec env.listener hrec h₁]
    exact ⟨[], (List.append_nil _).symm, by simp, hinv⟩
  | true =>
    rw [← hfirst] at h₁
    cases h₂ : env.allocates 1 (2 * (login.password.length + 1)) with
    | false =>
      rw [← hsecond] at h₂
      obtain ⟨t, bytes, hrun, -, hrel, hobj, hnext, hrest⟩ :=
        exists_run_parse_of_fail dec env.listener hrec h₁ h₂
      rw [hrun]
      exact ⟨_, hrel, by simp [Clean],
        hinv.of_object hrest ((Nat.le_succ _).trans_eq hnext.symm) fun k hk ↦ .inr (hobj k hk)⟩
    | true =>
      rw [← hsecond] at h₂
      obtain ⟨t, hconv, hrun⟩ := exists_run_parse dec env.listener hrec h₁ h₂
      have hinv₁ : Inv t := hinv.of_object hconv.rest (by rw [hconv.next]; omega) fun k hk ↦
        .inr (hconv.object k hk)
      obtain ⟨t', rs, hrun', hrel, hclean, hinv'⟩ :=
        exists_run_deliver_free env s.heap.attempts hinv₁
          (strings_of_converted hconv hinv login.length_le)
      rw [hconv.released] at hrel
      rw [hrun, hrun']
      refine ⟨rs, hrel, ?_, hinv'⟩
      rw [hclean, wiped_padded_iff]
      simp

/-- **What is freed in a step**, and when it is wiped. -/
theorem exists_step (dec : Utf8Decoder) (h : Inv s) (st : Step) :
    ∃ rs, (step dec s st).heap.released = s.heap.released ++ rs ∧
      ((∀ r ∈ rs, Clean r) ↔ Covered dec st) ∧ Inv (step dec s st) := by
  cases st with
  | message env login => exact exists_step_message dec env login h
  | reset env =>
    have hreset : Behaves env s.heap.attempts s resetCredentials := behaves_resetCredentials h
    obtain ⟨t, hrun, hch, hinv⟩ := hreset
    obtain ⟨rs, hrs, hclean⟩ := hch.released
    rw [step, hrun]
    exact ⟨rs, hrs, iff_of_true hclean trivial, hinv⟩

/-- What was freed at first and what is freed later. -/
theorem exists_foldl_step (dec : Utf8Decoder) (steps : List Step) (h : Inv s) :
    ∃ rs, (steps.foldl (step dec) s).heap.released = s.heap.released ++ rs ∧
      ((∀ r ∈ rs, Clean r) ↔ ∀ st ∈ steps, Covered dec st) := by
  induction steps generalizing s with
  | nil => exact ⟨[], (List.append_nil _).symm, by simp⟩
  | cons st steps ih =>
    obtain ⟨rs, hrs, hiff, hinv⟩ := exists_step dec h st
    obtain ⟨rs', hrs', hiff'⟩ := ih hinv
    refine ⟨rs ++ rs', ?_, ?_⟩
    · rw [List.foldl_cons, hrs', hrs, List.append_assoc]
    · rw [List.forall_mem_append, List.forall_mem_cons, hiff, hiff']

theorem inv_start : Inv start := fun n p hp ↦ by cases hp

/-- **Which passwords are gone from memory when it is freed.** -/
theorem wiped_exec_iff (dec : Utf8Decoder) (steps : List Step) :
    Wiped (exec dec steps) ↔ ∀ st ∈ steps, Covered dec st := by
  obtain ⟨rs, hrs, hiff⟩ := exists_foldl_step dec steps inv_start
  rw [← hiff, Wiped, exec, hrs]
  exact Iff.rfl

end Step

end Message

/-- A step with memory, and a listener. -/
def StepEnv.calm : StepEnv := ⟨fun _ _ ↦ true, fun _ _ ↦ 0, true, none⟩

/-- The login of `ann`, whose password is `pw`. -/
def annLogin : Login := ⟨[0x61, 0x6E, 0x6E], [0x70, 0x77], by decide⟩

theorem not_wiped_annLogin : ¬ Wiped (exec replacing [.message .calm annLogin]) := by
  intro hwiped
  obtain ⟨rs, hrs, hiff⟩ := exists_foldl_step replacing [.message .calm annLogin] inv_start
  have hclean : ∀ r ∈ rs, Clean r := by
    intro r hr
    refine hwiped r ?_
    rw [exec, hrs]
    exact List.mem_append_right _ hr
  rcases hiff.mp hclean _ List.mem_cons_self with h | h | ⟨-, h⟩
  · cases h
  · cases h
  · exact absurd (h 0x77 (by decide)) (by decide)

end GuestAgent.OVirtCredentials
