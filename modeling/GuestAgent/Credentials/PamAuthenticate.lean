import GuestAgent.Credentials.Pam
import GuestAgent.Library.Heap

/-!
# A login through the PAM module

`pam_sm_authenticate` asks for a token in a conversation, sends it to the agent, takes the user name
and the password from the answer, and hands both over to PAM.  On the way it owns three strings, the
token and the two copies, and there is the buffer on the stack that the answer was received in.

Here it is as a program over memory, with the copies where `strndup` puts them, the `@` that is
overwritten and put back, and the cleanup at the end.  `exec_verdict` says what a run comes to where
the user name of the answer is as long as it says (`AuthEnv.Fits`): what PAM is told is `verdict`, a
function of the values alone, and whatever fails, every string is freed once, the password after it
was overwritten, and nothing that was received stays in the buffer.  The token is freed as it is.

Of other answers the module reads what is not in the buffer, and nothing can be said about that; the
lemmas up to `exists_exec` are about them as well, but there may be a fault then.
-/

set_option autoImplicit false

namespace GuestAgent.PamAuth

open CString CHeap Effect Effect.Prog

/-! ## The module -/

/-- What an object is for. -/
inductive Owner where
  | creds
  | token
  | username
  | password
  deriving DecidableEq, Repr

/-- What PAM returns, and is told. -/
inductive PamCode where
  | success
  | userUnknown
  | credUnavail
  | other (code : ℕ)
  deriving DecidableEq, Repr

/-- What is written to the system log. -/
inductive PamLog where
  /-- `"Failed to retrieve auth token: %s"` -/
  | noToken (code : PamCode)
  /-- `"Conversation result is an invalid token"` -/
  | invalidToken
  /-- `"Failed to acquire user's credentials"` -/
  | notAcquired
  /-- `"Preset user [%s] is not the sameas the retrieved user [%s]"` -/
  | otherUser (preset username : Bytes)
  /-- `"Username not set: %s"` -/
  | usernameNotSet (code : PamCode)
  /-- `"Password not set: %s"` -/
  | passwordNotSet (code : PamCode)
  deriving DecidableEq, Repr

/-- A string of C, by value: it has no NUL in it, and fits into memory. -/
structure CStr where
  bytes : Bytes
  ne_zero : ∀ b ∈ bytes, b ≠ 0
  length_lt : bytes.length < 2 ^ 64

/-- What the module does besides working on memory. -/
inductive AuthAct where
  /-- The conversation, with what it returns and the reply. -/
  | prompt
  | socket
  /-- `do_acquire_user_credentials`, from `connect` to `recv`. -/
  | exchange (ticket : Bytes)
  | getpwnam (name : Bytes)
  | getUser
  | setUser (name : Bytes)
  | setAuthtok (password : Bytes)
  | syslog (record : PamLog)

@[reducible] def AuthAct.Resp : AuthAct → Type
  | prompt => PamCode × Option CStr
  | exchange _ => Option Bytes
  | getUser => PamCode × Option Bytes
  | setUser _ | setAuthtok _ => PamCode
  | socket | getpwnam _ => Bool
  | syslog _ => Unit

/-- A program of the module. -/
abbrev AuthProg (α : Type) : Type := MemProg Owner AuthAct.Resp Empty α

def prompt : AuthProg (PamCode × Option CStr) := ext AuthAct.prompt

def socket : AuthProg Bool := ext AuthAct.socket

def exchange (ticket : Bytes) : AuthProg (Option Bytes) := ext (AuthAct.exchange ticket)

def getpwnam (name : Bytes) : AuthProg Bool := ext (AuthAct.getpwnam name)

def getUser : AuthProg (PamCode × Option Bytes) := ext AuthAct.getUser

def setUser (name : Bytes) : AuthProg PamCode := ext (AuthAct.setUser name)

def setAuthtok (password : Bytes) : AuthProg PamCode := ext (AuthAct.setAuthtok password)

def syslog (record : PamLog) : AuthProg Unit := ext (AuthAct.syslog record)

/-- No string is as long as memory. -/
def addressSpace : ℕ := 2 ^ 64

/-- The string at `p`. -/
def cstr (p : Ptr) : AuthProg Bytes := scan p addressSpace

/-- A new string. -/
def newString (owner : Owner) (str : Bytes) : AuthProg (Option Ptr) := do
  match ← alloc owner false (str.length + 1) with
  | some p =>
    store p (str ++ [0])
    return some p
  | none => return none

/-- `strndup`. -/
def dupString (owner : Owner) (p : Ptr) (n : ℕ) : AuthProg (Option Ptr) := do
  newString owner (← scan p n)

/-- The end of `parse_credentials_buffer`: the `@` is overwritten, and put back where what comes
before it is no local account. -/
def dropDomain (username : Ptr) : AuthProg Unit := do
  let str ← cstr username
  if 0x40 ∈ str then
    let domain := username.add (str.takeWhile (· ≠ 0x40)).length
    store domain [0]
    if !(← getpwnam (← cstr username)) then store domain [0x40]

/-- `parse_credentials_buffer`: the two copies, or nothing where it returns `-1`. -/
def parseCredentialsBuffer (creds : Ptr) (len : ℕ) : AuthProg (Option (Ptr × Ptr)) := do
  if len < sizeofInt then return none
  let userLen := toInt32 (unpackBe32 (← load creds sizeofInt))
  match ← dupString .username (creds.add sizeofInt) (toSize userLen) with
  | none => return none
  | some username =>
    let passLen := toInt32 (toSize (len - sizeofInt - userLen))
    match ← dupString .password (creds.add (sizeofInt + userLen)) (toSize passLen) with
    | none =>
      free username
      return none
    | some password =>
      dropDomain username
      return some (username, password)

/-- `_pam_overwrite_n`. -/
def overwriteN (p : Ptr) (n : ℕ) : AuthProg Unit := store p (List.replicate n 0)

/-- `acquire_user_credentials`. -/
def acquireUserCredentials (creds ticket : Ptr) : AuthProg (Option (Ptr × Ptr)) := do
  if !(← socket) then return none
  match ← exchange (← cstr ticket) with
  | some received =>
    store creds received
    let credentials ← parseCredentialsBuffer creds received.length
    overwriteN creds received.length
    return credentials
  | none =>
    overwriteN creds credsSize
    return none

/-- The token of the conversation. -/
def pamPrompt : AuthProg (PamCode × Option Ptr) := do
  let (code, reply) ← prompt
  match reply with
  | some text => return (code, ← newString .token text.bytes)
  | none => return (code, none)

/-- The preset user, if PAM says who that is. -/
def presetUser : AuthProg (Option Bytes) := do
  let (code, user) ← getUser
  return if code = .success then user else none

/-- Hand the user name and the password over to PAM. -/
def setItems (username password : Ptr) : AuthProg PamCode := do
  let code ← setUser (← cstr username)
  if code ≠ .success then
    syslog (.usernameNotSet code)
    return code
  let code ← setAuthtok (← cstr password)
  if code ≠ .success then
    syslog (.passwordNotSet code)
    return code
  return .success

/-- The same, if the user name is the preset one or there is none. -/
def handOver (username password : Ptr) : AuthProg PamCode := do
  match ← presetUser with
  | some preset =>
    let name ← cstr username
    if name ≠ preset then
      syslog (.otherUser preset name)
      return .credUnavail
    setItems username password
  | none => setItems username password

/-- `_pam_overwrite`. -/
def overwrite (p : Ptr) : AuthProg Unit := do
  overwriteN p (← cstr p).length

/-- What comes after `cleanup:`. -/
def cleanup (token : Option Ptr) (credentials : Option (Ptr × Ptr)) : AuthProg Unit := do
  if let some token := token then free token
  if let some (username, password) := credentials then
    overwrite password
    free password
    free username

/-- `pam_sm_authenticate`, with the buffer that `acquire_user_credentials` has on its stack. -/
def pamSmAuthenticate (creds : Ptr) : AuthProg PamCode := do
  let (retval, token) ← pamPrompt
  if retval ≠ .success then
    syslog (.noToken retval)
    cleanup token none
    return .userUnknown
  match token with
  | none =>
    syslog .invalidToken
    cleanup none none
    return .userUnknown
  | some token =>
    match ← acquireUserCredentials creds token with
    | none =>
      syslog .notAcquired
      cleanup (some token) none
      return .userUnknown
    | some (username, password) =>
      let retval ← handOver username password
      cleanup (some token) (some (username, password))
      return retval

/-! ## What it runs on -/

/-- What the module meets: what `acquire_user_credentials` does, the conversation, the agent's
answer to a token, and what the calls of PAM return. -/
structure AuthEnv extends PamEnv where
  prompt : PamCode
  reply : Option CStr
  answer : Bytes → Bytes
  getpwnam : Bytes → Bool
  getUser : PamCode
  setUser : PamCode
  setAuthtok : PamCode
  /-- What is in memory before the string with this number is written. -/
  garbage : ℕ → Memory

/-- The items of PAM, and the system log. -/
structure Items where
  user : Option Bytes
  authtok : Option Bytes
  log : List PamLog

def Items.record (s : Items) (record : PamLog) : Items := { s with log := s.log ++ [record] }

namespace AuthEnv

variable (env : AuthEnv)

/-- An item that could not be set stays as it is. -/
def ext : (a : AuthAct) → Items → a.Resp × Items
  | .prompt, s => ((env.prompt, env.reply), s)
  | .socket, s => (env.socket, s)
  | .exchange ticket, s => (doAcquireUserCredentials env.toPamEnv (env.answer ticket), s)
  | .getpwnam name, s => (env.getpwnam name, s)
  | .getUser, s => ((env.getUser, s.user), s)
  | .setUser name, s =>
    (env.setUser, if env.setUser = .success then { s with user := some name } else s)
  | .setAuthtok password, s =>
    (env.setAuthtok, if env.setAuthtok = .success then { s with authtok := some password } else s)
  | .syslog record, s => ((), s.record record)

/-- The first string is the reply, which the conversation has allocated. -/
def machine : Machine Owner AuthAct.Resp Items where
  allocates n _ := match n with
    | 0 => true
    | 1 => env.dupUsername
    | _ => env.dupPassword
  garbage := env.garbage
  ext := env.ext

/-- The buffer, before anything is received. -/
def creds : Object Owner where
  owner := .creds
  size := credsSize
  readable := credsSize
  data := env.stack
  live := true

end AuthEnv

/-- Where the buffer is. -/
def credsPtr : Ptr := ⟨0, 0⟩

/-- The memory of the module, and the items of PAM. -/
abbrev AuthState := MState Owner Items

def start (env : AuthEnv) (items : Items) : AuthState := ⟨Heap.empty.push env.creds, items⟩

/-- A login. -/
def exec (env : AuthEnv) (items : Items) : Except Empty PamCode × AuthState :=
  (pamSmAuthenticate credsPtr).run env.machine.handle (start env items)

/-! ## What it comes to -/

namespace AuthEnv

variable (env : AuthEnv) (items : Items)

/-- The user name and the password for a token. -/
def acquired (token : CStr) : Option (Bytes × Bytes) :=
  GuestAgent.acquireUserCredentials env.getpwnam env.toPamEnv (env.answer token.bytes)

/-- The preset user, if PAM says who that is. -/
def preset : Option Bytes := if env.getUser = .success then items.user else none

/-- What PAM answers once both items are handed over, and what it has then. -/
def set (username password : Bytes) : PamCode × Items :=
  if env.setUser = .success then
    let items := { items with user := some username }
    if env.setAuthtok = .success then (.success, { items with authtok := some password })
    else (env.setAuthtok, items.record (.passwordNotSet env.setAuthtok))
  else (env.setUser, items.record (.usernameNotSet env.setUser))

/-- An answer is too short for a length, or has the user name whose length it declares. -/
def Fits : Prop :=
  ∀ token ∈ env.reply, ∀ received ∈ doAcquireUserCredentials env.toPamEnv (env.answer token.bytes),
    received.length < sizeofInt ∨ sizeofInt + declared received ≤ received.length

/-- The answer of the module to a user name and a password. -/
def accept (username password : Bytes) : PamCode × Items :=
  match env.preset items with
  | some preset =>
    if username = preset then env.set items username password
    else (.credUnavail, items.record (.otherUser preset username))
  | none => env.set items username password

/-- The answer of the module. -/
def verdict : PamCode × Items :=
  if env.prompt = .success then
    match env.reply with
    | some token =>
      match env.acquired token with
      | some (username, password) => env.accept items username password
      | none => (.userUnknown, items.record .notAcquired)
    | none => (.userUnknown, items.record .invalidToken)
  else (.userUnknown, items.record (.noToken env.prompt))

end AuthEnv

/-! ## Memory -/

/-- What was there before is as it was. -/
structure Extends (s t : AuthState) : Prop where
  object : ∀ j < s.heap.next, t.heap.object j = s.heap.object j
  next : s.heap.next ≤ t.heap.next
  rest : t.rest = s.rest

/-- A password is freed with zeros in it. -/
def Clean (r : Released Owner) : Prop := r.owner = .password → ∀ b ∈ r.bytes, b = 0

/-- Every object from `n` on has been freed once, but for some that are left. -/
structure Freed (n : ℕ) (left : List ℕ) (s t : AuthState) : Prop where
  dead : ∀ j, n ≤ j → j < t.heap.next → j ∉ left → ∃ x, t.heap.object j = some x ∧ x.live = false
  released : ∃ rs, t.heap.released = s.heap.released ++ rs ∧
    n + rs.length + left.length = t.heap.next ∧ ∀ r ∈ rs, Clean r

/-- A string of its own at `p`, with what is left in memory after its NUL. -/
def Copy (s : AuthState) (p : Ptr) (owner : Owner) (str rest : Bytes) : Prop :=
  ∃ i, p = ⟨i, 0⟩ ∧ 0 < i ∧ i < s.heap.next ∧ (∀ b ∈ str, b ≠ 0) ∧
    str.length + rest.length < addressSpace ∧ s.heap.Full i owner (str ++ 0 :: rest)

section Memory

variable {env : AuthEnv} {s t u : AuthState} {i n : ℕ} {p : Ptr} {owner : Owner}
variable {str rest : Bytes}

theorem Extends.refl (s : AuthState) : Extends s s := ⟨fun _ _ ↦ rfl, le_rfl, rfl⟩

theorem Extends.trans (h : Extends s t) (h' : Extends t u) : Extends s u where
  object j hj := (h'.object j (hj.trans_le h.next)).trans (h.object j hj)
  next := h.next.trans h'.next
  rest := h'.rest.trans h.rest

/-- A new object may be changed. -/
theorem Extends.sameBut (h : Extends s t) (h' : SameBut i t u) (hi : s.heap.next ≤ i) :
    Extends s u where
  object j hj := (h'.object j (by omega)).trans (h.object j hj)
  next := h.next.trans_eq h'.next.symm
  rest := h'.rest.trans h.rest

theorem toSize_lt (x : Int) : toSize x < addressSpace := by
  rw [toSize, addressSpace]
  omega

/-! ### Strings -/

theorem Copy.run_cstr (h : Copy s p owner str rest) :
    (cstr p).run env.machine.handle s = (.ok str, s) := by
  obtain ⟨i, rfl, -, -, hne, hlen, hfull⟩ := h
  have hspace : (str ++ 0 :: rest).length ≤ addressSpace := by
    rw [List.length_append, List.length_cons]
    omega
  have hsplit : s.heap.Holds i owner (str ++ 0 :: rest).length ([] ++ (str ++ 0 :: rest)) := hfull
  have hscan := hsplit.run_scan (m := env.machine) (ε := Empty)
    (show (0 : Int) = ([] : Bytes).length from rfl) (by simp) hspace
  rwa [List.takeWhile_append_of_pos (by simpa using hne), List.takeWhile_cons_of_neg (by simp),
    List.append_nil] at hscan

theorem Copy.lt_next (h : Copy s p owner str rest) : p.object < s.heap.next := by
  obtain ⟨i, rfl, -, hi, -⟩ := h
  exact hi

theorem Copy.sameBut (h : Copy s p owner str rest) (ht : SameBut i s t) (hne : p.object ≠ i) :
    Copy t p owner str rest := by
  obtain ⟨j, rfl, hpos, hj, hstr, hlen, hfull⟩ := h
  exact ⟨j, rfl, hpos, hj.trans_eq ht.next.symm, hstr, hlen, ht.holds hfull hne⟩

theorem Copy.extends (h : Copy s p owner str rest) (ht : Extends s t) :
    Copy t p owner str rest := by
  obtain ⟨j, rfl, hpos, hj, hstr, hlen, hfull⟩ := h
  exact ⟨j, rfl, hpos, hj.trans_le ht.next, hstr, hlen,
    by rwa [Heap.Full, Heap.Holds, ht.object j hj]⟩

/-- A new string where there is memory for it. -/
theorem exists_run_newString (env : AuthEnv) (owner : Owner) (hpos : 0 < s.heap.next)
    (hne : ∀ b ∈ str, b ≠ 0) (hlen : str.length < addressSpace)
    (hmem : env.machine.allocates s.heap.attempts (str.length + 1) = true) :
    ∃ t, (newString owner str).run env.machine.handle s = (.ok (some ⟨s.heap.next, 0⟩), t) ∧
      Extends s t ∧ t.heap.next = s.heap.next + 1 ∧ t.heap.attempts = s.heap.attempts + 1 ∧
        t.heap.released = s.heap.released ∧ t.heap.faults = s.heap.faults ∧
          Copy t ⟨s.heap.next, 0⟩ owner str [] := by
  obtain ⟨t₁, bs, hrun₁, hfull₁, hbs, -, hobj₁, hnext₁, hatt₁, hfaults₁, hrel₁, hrest₁⟩ :=
    exists_run_alloc (m := env.machine) (o := owner) (ε := Empty) false hmem
  have hsplit : t₁.heap.Holds s.heap.next owner bs.length ([] ++ (bs ++ [])) := by
    simpa using hfull₁
  obtain ⟨t₂, hrun₂, hholds₂, hsame₂, hrel₂⟩ := hsplit.exists_run_store (m := env.machine)
    (ε := Empty) (show (0 : Int) = ([] : Bytes).length from rfl)
    (show (str ++ [0]).length = bs.length by rw [hbs, List.length_append, List.length_singleton])
  have hext₁ : Extends s t₁ := ⟨fun j hj ↦ hobj₁ j (by omega), by omega, hrest₁⟩
  refine ⟨t₂, ?_, hext₁.sameBut hsame₂ le_rfl, hsame₂.next.trans hnext₁,
    hsame₂.attempts.trans hatt₁, hrel₂.trans hrel₁, hsame₂.faults.trans hfaults₁, _, rfl, hpos, ?_,
    hne, by simpa using hlen, ?_⟩
  · rw [newString, run_bind_ok hrun₁]
    dsimp only
    rw [run_bind_ok hrun₂, run_pure]
  · rw [hsame₂.next, hnext₁]
    exact Nat.lt_succ_self _
  · refine Heap.Holds.full (by simpa using hholds₂) ?_
    simp [hbs]

/-- Where there is none, nothing happens. -/
theorem exists_run_newString_fail (env : AuthEnv) (owner : Owner)
    (hmem : env.machine.allocates s.heap.attempts (str.length + 1) = false) :
    ∃ t, (newString owner str).run env.machine.handle s = (.ok none, t) ∧
      Extends s t ∧ t.heap.next = s.heap.next ∧ t.heap.released = s.heap.released ∧
        t.heap.faults = s.heap.faults :=
  ⟨{ s with heap := s.heap.tried },
    by rw [newString, run_bind_ok (run_alloc_fail owner false hmem)]; rfl,
    ⟨fun _ _ ↦ rfl, le_rfl, rfl⟩, rfl, rfl, rfl⟩

/-- What is read may lie outside of its object. -/
theorem extends_fault (s : AuthState) (ok : Bool) (f : Fault) :
    Extends s { s with heap := s.heap.fault ok f } where
  object _ _ := by rw [Heap.object_fault]
  next := by rw [Heap.next_fault]
  rest := rfl

/-- `n` bytes from `p` may be read. -/
def Readable (s : AuthState) (p : Ptr) (n : ℕ) : Prop :=
  ∃ x, s.heap.object p.object = some x ∧ x.within p n x.readable = true

/-- A string in what may be read is read without a fault. -/
theorem Readable.faults (h : Readable s p n) {k : ℕ} (hk : k ≤ n) :
    (s.heap.fault (s.heap.canRead p k) (.read p k)).faults = s.heap.faults := by
  obtain ⟨x, hx, hwithin⟩ := h
  rw [Heap.canRead_of_object hx (Object.within_of_le hwithin hk), Heap.fault, if_pos rfl]

theorem Readable.extends (h : Readable s p n) (ht : Extends s t) (hp : p.object < s.heap.next) :
    Readable t p n := by
  obtain ⟨x, hx, hwithin⟩ := h
  exact ⟨x, (ht.object p.object hp).trans hx, hwithin⟩

theorem exists_run_dupString (env : AuthEnv) (owner : Owner) {m : Memory}
    (hm : s.heap.data p.object = m) (hpos : 0 < s.heap.next) (hn : n < addressSpace)
    (hmem : ∀ size, env.machine.allocates s.heap.attempts size = true) :
    ∃ t, (dupString owner p n).run env.machine.handle s = (.ok (some ⟨s.heap.next, 0⟩), t) ∧
      Extends s t ∧ t.heap.next = s.heap.next + 1 ∧ t.heap.attempts = s.heap.attempts + 1 ∧
        t.heap.released = s.heap.released ∧ (Readable s p n → t.heap.faults = s.heap.faults) ∧
          Copy t ⟨s.heap.next, 0⟩ owner (strndup m p.offset n) [] := by
  subst hm
  set k := min ((strndup (s.heap.data p.object) p.offset n).length + 1) n
  set s₁ : AuthState := { s with heap := s.heap.fault (s.heap.canRead p k) (.read p k) }
  have hext : Extends s s₁ := extends_fault ..
  have hnext : s₁.heap.next = s.heap.next := Heap.next_fault ..
  have hatt : s₁.heap.attempts = s.heap.attempts := Heap.attempts_fault ..
  have hrel : s₁.heap.released = s.heap.released := Heap.released_fault ..
  obtain ⟨t, hrun, hext', hnext', hatt', hrel', hfaults', hcopy⟩ := exists_run_newString (s := s₁)
    env owner
    (hnext ▸ hpos) (strndup_ne_zero _ _ _) ((length_strndup_le ..).trans_lt hn) (hatt ▸ hmem _)
  rw [hnext] at hrun hnext' hcopy
  exact ⟨t, by rw [dupString, run_bind_ok run_scan_data]; exact hrun, hext.trans hext', hnext',
    by rw [hatt', hatt], hrel'.trans hrel,
    fun hread ↦ hfaults'.trans (hread.faults (min_le_right ..)), hcopy⟩

theorem exists_run_dupString_fail (env : AuthEnv) (owner : Owner)
    (hmem : ∀ size, env.machine.allocates s.heap.attempts size = false) :
    ∃ t, (dupString owner p n).run env.machine.handle s = (.ok none, t) ∧
      Extends s t ∧ t.heap.next = s.heap.next ∧ t.heap.released = s.heap.released ∧
        (Readable s p n → t.heap.faults = s.heap.faults) := by
  set k := min ((strndup (s.heap.data p.object) p.offset n).length + 1) n
  set s₁ : AuthState := { s with heap := s.heap.fault (s.heap.canRead p k) (.read p k) }
  have hatt : s₁.heap.attempts = s.heap.attempts := Heap.attempts_fault ..
  obtain ⟨t, hrun, hext, hnext, hrel, hfaults⟩ := exists_run_newString_fail (s := s₁) env owner
    (hatt ▸ hmem (strndup (s.heap.data p.object) p.offset n).length.succ)
  exact ⟨t, by rw [dupString, run_bind_ok run_scan_data]; exact hrun, (extends_fault ..).trans hext,
    hnext.trans (Heap.next_fault ..), hrel.trans (Heap.released_fault ..),
    fun hread ↦ hfaults.trans (hread.faults (min_le_right ..))⟩

/-- **The `@` is overwritten, and put back where what comes before it is no local account.** -/
theorem exists_run_dropDomain (env : AuthEnv) (h : Copy s p .username str []) :
    ∃ t rest, (dropDomain p).run env.machine.handle s = (.ok (), t) ∧ SameBut p.object s t ∧
      t.heap.released = s.heap.released ∧
        Copy t p .username (GuestAgent.dropDomain env.getpwnam str) rest := by
  rw [dropDomain, run_bind_ok h.run_cstr, GuestAgent.dropDomain]
  by_cases hat : 0x40 ∈ str
  · rw [if_pos hat, if_pos hat]
    obtain ⟨i, rfl, hpos, hi, hne, hlen, hfull⟩ := h
    obtain ⟨name, domain, rfl, hnotat⟩ := List.eq_append_cons_of_mem hat
    have hname : (name ++ 0x40 :: domain).takeWhile (· ≠ 0x40) = name := by
      rw [List.takeWhile_append_of_pos fun b hb ↦ by simpa using fun h : b = 0x40 ↦ hnotat (h ▸ hb),
        List.takeWhile_cons_of_neg (by simp), List.append_nil]
    have hoff : (0 : Int) + name.length = name.length := zero_add _
    rw [List.length_append, List.length_cons, List.length_nil] at hlen
    -- the `@` is overwritten
    have hsplit : s.heap.Holds i .username (name ++ 0x40 :: domain ++ [0]).length
        (name ++ ([0x40] ++ (domain ++ [0]))) := by
      have hassoc : name ++ ([0x40] ++ (domain ++ [0])) = name ++ 0x40 :: domain ++ [0] := by simp
      rw [hassoc]
      exact hfull
    obtain ⟨t, hrun, hholds, hsame, hrel⟩ := hsplit.exists_run_store (m := env.machine)
      (ε := Empty) hoff (show [0].length = [0x40].length from rfl)
    have hcopy : Copy t ⟨i, 0⟩ .username name (domain ++ [0]) := by
      refine ⟨i, rfl, hpos, hi.trans_eq hsame.next.symm, fun b hb ↦ ?_, ?_, ?_⟩
      · exact hne b (List.mem_append_left _ hb)
      · rw [List.length_append, List.length_singleton]
        omega
      · refine Heap.Holds.full (by simpa using hholds) ?_
        simp
    have hlocal : (getpwnam name).run env.machine.handle t = (.ok (env.getpwnam name), t) := rfl
    dsimp only [Ptr.add]
    rw [hname, run_bind_ok hrun, run_bind_ok hcopy.run_cstr, run_bind_ok hlocal]
    by_cases hknown : env.getpwnam name = true
    · rw [if_pos hknown]
      exact ⟨t, _, by simp [hknown], hsame, hrel, hcopy⟩
    · -- it is put back
      rw [if_neg hknown]
      obtain ⟨u, hrun', hholds', hsame', hrel'⟩ := hholds.exists_run_store (m := env.machine)
        (ε := Empty) hoff (show [0x40].length = [0].length from rfl)
      refine ⟨u, [], ?_, hsame.trans hsame', hrel'.trans hrel, i, rfl, hpos, ?_, hne, ?_, ?_⟩
      · rw [if_pos (by simpa using hknown)]
        exact hrun'
      · exact (hcopy.lt_next).trans_eq hsame'.next.symm
      · rw [List.length_append, List.length_cons, List.length_nil]
        omega
      · refine Heap.Holds.full (by simpa using hholds') ?_
        simp
  · rw [if_neg hat, if_neg hat]
    exact ⟨s, [], rfl, ⟨fun _ _ ↦ rfl, rfl, rfl, rfl, rfl⟩, rfl, h⟩

/-- An object is freed with what is in it. -/
theorem exists_run_free (env : AuthEnv) {bs : Bytes} (h : s.heap.Full i owner bs) :
    ∃ t, (free ⟨i, 0⟩ : AuthProg _).run env.machine.handle s = (.ok (), t) ∧ SameBut i s t ∧
      t.heap.released = s.heap.released ++ [⟨owner, bs⟩] ∧
        ∃ x, t.heap.object i = some x ∧ x.live = false := by
  obtain ⟨d, hd, -, hbytes⟩ := h
  refine ⟨_, run_free hd, ⟨fun j hj ↦ Heap.set_object_of_ne hj, rfl, rfl, rfl, rfl⟩, ?_, _,
    Heap.set_object_self, rfl⟩
  rw [Heap.release]
  simp only [bytesAt_of_holds hbytes]

theorem Copy.full (h : Copy s ⟨i, 0⟩ owner str rest) : s.heap.Full i owner (str ++ 0 :: rest) := by
  obtain ⟨j, hj, -, -, -, -, hfull⟩ := h
  obtain rfl : i = j := congrArg Ptr.object hj
  exact hfull

/-- What the decoder comes to: it has failed and left nothing, or there are two copies. -/
inductive Parsed (s : AuthState) : Option (Bytes × Bytes) → Option (Ptr × Ptr) → AuthState → Prop
  | failed {t : AuthState} (h : Freed s.heap.next [] s t) : Parsed s none none t
  | copied {t : AuthState} {username password rest : Bytes} (hnext : t.heap.next = s.heap.next + 2)
      (hreleased : t.heap.released = s.heap.released)
      (husername : Copy t ⟨s.heap.next, 0⟩ .username username rest)
      (hpassword : Copy t ⟨s.heap.next + 1, 0⟩ .password password []) :
      Parsed s (some (username, password)) (some (⟨s.heap.next, 0⟩, ⟨s.heap.next + 1, 0⟩)) t

theorem Freed.of_next (hnext : t.heap.next = n) (hrel : t.heap.released = s.heap.released) :
    Freed n [] s t where
  dead j hj hj' := absurd hj' (by omega)
  released := ⟨[], by rw [hrel, List.append_nil], hnext.symm, by simp⟩

theorem Extends.data (h : Extends s t) (hpos : 0 < s.heap.next) :
    t.heap.data 0 = s.heap.data 0 := by
  rw [Heap.data, Heap.data, h.object 0 hpos]

theorem offset_credsPtr_add (n : Int) : (credsPtr.add n).offset = n := zero_add n

/-- What was received is in the buffer, and has the user name whose length it declares. -/
structure Whole (s : AuthState) (m : Memory) (len : ℕ) : Prop where
  buffer : ∃ x, s.heap.object 0 = some x ∧ x.live = true ∧ len ≤ x.readable
  fits : sizeofInt ≤ len → sizeofInt + unpackBe32 [m 0, m 1, m 2, m 3] ≤ len
  lt : len < 2 ^ 31

/-- Part of it may be read. -/
theorem Whole.part {m : Memory} {len : ℕ} (h : Whole s m len) (hp : p.object = 0)
    (hlo : 0 ≤ p.offset) (hhi : p.offset + n ≤ len) : Readable s p n := by
  obtain ⟨x, hx, hlive, hlen⟩ := h.buffer
  exact ⟨x, hp ▸ hx, Object.within_of_bounds hlive hlo (by omega)⟩

/-- Both slices lie in what was received. -/
theorem Whole.slices {m : Memory} {len : ℕ} (h : Whole s m len) (hlen : sizeofInt ≤ len) :
    let userLen := toInt32 (unpackBe32 [m 0, m 1, m 2, m 3])
    Readable s (credsPtr.add sizeofInt) (toSize userLen) ∧
      Readable s (credsPtr.add (sizeofInt + userLen))
        (toSize (toInt32 (toSize (len - sizeofInt - userLen)))) := by
  have hfits := h.fits hlen
  have hlt := h.lt
  obtain ⟨passLen, hpass⟩ := Nat.exists_eq_add_of_le hfits
  have huser := toInt32_of_bounds (x := unpackBe32 [m 0, m 1, m 2, m 3]) (by omega) (by omega)
  have hpassLen : toInt32 (toSize (len - sizeofInt - (unpackBe32 [m 0, m 1, m 2, m 3] : Int))) =
      passLen := by
    rw [toInt32_toSize, toInt32_of_bounds (by omega) (by omega)]
    omega
  dsimp only
  rw [huser, hpassLen, toSize_natCast (by omega), toSize_natCast (by omega)]
  constructor <;> refine h.part rfl ?_ ?_ <;> rw [offset_credsPtr_add] <;> omega

/-- **The decoder makes its copies of what the function of the same name yields.** -/
theorem exists_run_parseCredentialsBuffer {m : Memory} (hm : s.heap.data 0 = m)
    (hpos : 0 < s.heap.next) (hatt : s.heap.attempts = 1) (len : ℕ) :
    ∃ r t, (parseCredentialsBuffer credsPtr len).run env.machine.handle s = (.ok r, t) ∧
      Extends s t ∧
        Parsed s (GuestAgent.parseCredentialsBuffer env.getpwnam env.toPamEnv m len) r t ∧
          (Whole s m len → t.heap.faults = s.heap.faults) := by
  rw [parseCredentialsBuffer, GuestAgent.parseCredentialsBuffer]
  by_cases hlen : len < sizeofInt
  · rw [if_pos hlen, if_pos hlen]
    exact ⟨none, s, rfl, .refl s, .failed (.of_next rfl rfl), fun _ ↦ rfl⟩
  rw [if_neg hlen, if_neg hlen, run_bind_ok run_load_data]
  set s₀ : AuthState :=
    ⟨s.heap.fault (s.heap.canRead credsPtr sizeofInt) (.read credsPtr sizeofInt), s.rest⟩
  have hext₀ : Extends s s₀ := extends_fault ..
  have hnext₀ : s₀.heap.next = s.heap.next := Heap.next_fault ..
  have hatt₀ : s₀.heap.attempts = 1 := (Heap.attempts_fault ..).trans hatt
  have hrel₀ : s₀.heap.released = s.heap.released := Heap.released_fault ..
  have hfaults₀ : Whole s m len → s₀.heap.faults = s.heap.faults :=
    fun h ↦ (h.part rfl le_rfl (by simpa [credsPtr] using hlen)).faults le_rfl
  have hm₀ : s₀.heap.data 0 = m := (hext₀.data hpos).trans hm
  have hword : bytesAt (s.heap.data credsPtr.object) credsPtr.offset sizeofInt =
      [m 0, m 1, m 2, m 3] := by
    rw [← hm]
    rfl
  rw [hword]
  dsimp only
  set userLen := toInt32 (unpackBe32 [m 0, m 1, m 2, m 3])
  cases hu : env.dupUsername with
  | false =>
    obtain ⟨t, hrun, hext, hnext, hrel, hfaults⟩ := exists_run_dupString_fail (s := s₀)
      (p := credsPtr.add sizeofInt) (n := toSize userLen) env .username
      fun _ ↦ by rw [hatt₀]; exact hu
    refine ⟨none, t, by rw [run_bind_ok hrun]; rfl, hext₀.trans hext, .failed (.of_next ?_ ?_),
      fun h ↦ ?_⟩
    · rw [hnext, hnext₀]
    · rw [hrel, hrel₀]
    · rw [hfaults ((h.slices (not_lt.mp hlen)).1.extends hext₀ hpos), hfaults₀ h]
  | true =>
    obtain ⟨t₁, hrun₁, hext₁, hnext₁, hatt₁, hrel₁, hfaults₁, hcopy₁⟩ := exists_run_dupString
      (s := s₀) (p := credsPtr.add sizeofInt) env .username hm₀ (hnext₀ ▸ hpos) (toSize_lt userLen)
      fun _ ↦ by rw [hatt₀]; exact hu
    rw [hnext₀] at hrun₁ hnext₁ hcopy₁
    have hm₁ : t₁.heap.data 0 = m := (hext₁.data (hnext₀ ▸ hpos)).trans hm₀
    have hext₁' : Extends s t₁ := hext₀.trans hext₁
    rw [run_bind_ok hrun₁]
    dsimp only
    set passLen := toInt32 (toSize (len - sizeofInt - userLen))
    cases hp : env.dupPassword with
    | false =>
      obtain ⟨t₂, hrun₂, hext₂, hnext₂, hrel₂, hfaults₂⟩ := exists_run_dupString_fail (s := t₁)
        (p := credsPtr.add (sizeofInt + userLen)) (n := toSize passLen) env .password
        fun _ ↦ by rw [hatt₁, hatt₀]; exact hp
      -- the copy of the user name is given up
      obtain ⟨t₃, hrun₃, hsame₃, hrel₃, hdead₃⟩ :=
        exists_run_free env (hcopy₁.extends hext₂).full
      rw [hrel₂, hrel₁, hrel₀] at hrel₃
      refine ⟨none, t₃, ?_, (hext₁'.trans hext₂).sameBut hsame₃ le_rfl,
        .failed ⟨fun j hj hj' _ ↦ ?_, _, hrel₃, ?_, by simp [Clean]⟩, fun h ↦ ?_⟩
      · rw [run_bind_ok hrun₂]
        dsimp only
        rw [run_bind_ok hrun₃, run_pure]
      · obtain rfl : j = s.heap.next := by
          rw [hsame₃.next, hnext₂, hnext₁] at hj'
          omega
        exact hdead₃
      · rw [hsame₃.next, hnext₂, hnext₁, List.length_singleton, List.length_nil]
      · obtain ⟨huser, hpass⟩ := h.slices (not_lt.mp hlen)
        rw [hsame₃.faults, hfaults₂ (hpass.extends hext₁' hpos),
          hfaults₁ (huser.extends hext₀ hpos), hfaults₀ h]
    | true =>
      obtain ⟨t₂, hrun₂, hext₂, hnext₂, -, hrel₂, hfaults₂, hcopy₂⟩ := exists_run_dupString
        (s := t₁) (p := credsPtr.add (sizeofInt + userLen)) env .password hm₁ (by omega)
        (toSize_lt passLen) fun _ ↦ by rw [hatt₁, hatt₀]; exact hp
      rw [hnext₁] at hrun₂ hcopy₂
      rw [offset_credsPtr_add] at hcopy₁ hcopy₂
      obtain ⟨t₃, rest, hrun₃, hsame₃, hrel₃, hcopy₃⟩ :=
        exists_run_dropDomain env (hcopy₁.extends hext₂)
      refine ⟨_, t₃, ?_, (hext₁'.trans hext₂).sameBut hsame₃ le_rfl, .copied ?_ ?_ hcopy₃
        (hcopy₂.sameBut hsame₃ (Nat.succ_ne_self _)), fun h ↦ ?_⟩
      · rw [run_bind_ok hrun₂]
        dsimp only
        rw [run_bind_ok hrun₃, run_pure]
      · rw [hsame₃.next, hnext₂, hnext₁]
      · rw [hrel₃, hrel₂, hrel₁, hrel₀]
      · obtain ⟨huser, hpass⟩ := h.slices (not_lt.mp hlen)
        rw [hsame₃.faults, hfaults₂ (hpass.extends hext₁' hpos),
          hfaults₁ (huser.extends hext₀ hpos), hfaults₀ h]

/-! ### The buffer -/

theorem write_zeros (m : Memory) (p : Int) (n : ℕ) (j : Int) :
    m.write p (List.replicate n 0) j = if p ≤ j ∧ j < p + n then 0 else m j := by
  by_cases hp : p ≤ j
  · by_cases hn : j < p + n
    · have hj : (j - p).toNat < n := by omega
      rw [if_pos ⟨hp, hn⟩, Memory.write, if_pos hp, List.getElem?_replicate, if_pos hj]
      rfl
    · rw [if_neg fun h ↦ hn h.2, Memory.write_of_ge (by rw [List.length_replicate]; omega)]
  · rw [if_neg fun h ↦ hp h.1, Memory.write_of_lt (by omega)]

theorem write_nil (m : Memory) (p : Int) : m.write p [] = m := by
  funext j
  exact ite_self _

/-- Nothing is left of what was written before. -/
theorem write_write_zeros (m : Memory) (p : Int) (bs : Bytes) :
    (m.write p bs).write p (List.replicate bs.length 0) =
      m.write p (List.replicate bs.length 0) := by
  funext j
  rw [write_zeros, write_zeros]
  by_cases hj : p ≤ j ∧ j < p + bs.length
  · rw [if_pos hj, if_pos hj]
  · rw [if_neg hj, if_neg hj]
    by_cases hp : p ≤ j
    · exact Memory.write_of_ge (by omega)
    · exact Memory.write_of_lt (by omega)

/-- A part of the module changes nothing but the buffer. -/
structure SameStrings (s t : AuthState) : Prop where
  object : ∀ j, j ≠ 0 → t.heap.object j = s.heap.object j
  next : t.heap.next = s.heap.next
  released : t.heap.released = s.heap.released

theorem SameStrings.copy (h : SameStrings s t) (hcopy : Copy s p owner str rest) :
    Copy t p owner str rest := by
  obtain ⟨j, rfl, hpos, hj, hstr, hlen, hfull⟩ := hcopy
  refine ⟨j, rfl, hpos, hj.trans_eq h.next.symm, hstr, hlen, ?_⟩
  rwa [Heap.Full, Heap.Holds, h.object j hpos.ne']

/-- What is done to the buffer before the decoder and after it changes nothing for its copies. -/
theorem Parsed.sameStrings {v : AuthState} {a : Option (Bytes × Bytes)} {r : Option (Ptr × Ptr)}
    (h : Parsed t a r u) (hs : SameStrings s t) (hu : SameStrings u v) (hpos : 0 < s.heap.next) :
    Parsed s a r v := by
  cases h with
  | failed h =>
    obtain ⟨rs, hrs, hcount, hclean⟩ := h.released
    rw [hs.next] at hcount
    refine .failed ⟨fun j hj hj' hleft ↦ ?_, rs, ?_, hcount.trans hu.next.symm, hclean⟩
    · rw [hu.object j (by omega)]
      exact h.dead j (hs.next ▸ hj) (hu.next ▸ hj') hleft
    · rw [hu.released, hrs, hs.released]
  | copied hnext hreleased husername hpassword =>
    rw [hs.next] at hnext husername hpassword ⊢
    exact .copied (hu.next.trans hnext) (by rw [hu.released, hreleased, hs.released])
      (hu.copy husername) (hu.copy hpassword)

/-- The buffer is written to. -/
theorem exists_run_store {x : Object Owner} (env : AuthEnv) (hx : s.heap.object 0 = some x)
    (bs : Bytes) :
    ∃ t, (store credsPtr bs : AuthProg _).run env.machine.handle s = (.ok (), t) ∧
      t.heap.object 0 = some { x with data := x.data.write 0 bs } ∧ SameStrings s t ∧
        t.heap.attempts = s.heap.attempts ∧ t.rest = s.rest ∧
          (x.live = true → bs.length ≤ x.size → t.heap.faults = s.heap.faults) := by
  refine ⟨_, run_store_data hx, Heap.set_object_self, ⟨fun j hj ↦ ?_, ?_, ?_⟩, ?_, rfl,
    fun hlive hlen ↦ ?_⟩
  · exact (Heap.set_object_of_ne hj).trans (by rw [Heap.object_fault])
  · rw [Heap.set_next, Heap.next_fault]
  · rw [Heap.set_released, Heap.released_fault]
  · rw [Heap.set_attempts, Heap.attempts_fault]
  · have hwithin : x.within credsPtr bs.length x.size = true :=
      Object.within_of_bounds hlive le_rfl (by simpa [credsPtr] using hlen)
    rw [Heap.set_faults, Heap.canWrite_of_object hx hwithin, Heap.fault, if_pos rfl]

/-- In the buffer there is nothing but zeros and what was there at the start. -/
def Wiped (env : AuthEnv) (s : AuthState) : Prop :=
  ∃ k, s.heap.object 0 = some { env.creds with data := env.stack.write 0 (List.replicate k 0) }

theorem Wiped.sameBut (h : Wiped env s) (ht : SameBut i s t)
    (hi : 0 < i) : Wiped env t := by
  obtain ⟨k, hk⟩ := h
  exact ⟨k, (ht.object 0 hi.ne).trans hk⟩

theorem length_le_of_doAcquire {env : PamEnv} {block received : Bytes}
    (h : doAcquireUserCredentials env block = some received) : received.length ≤ credsSize := by
  simp only [doAcquireUserCredentials, Option.ite_none_left_eq_some] at h
  obtain ⟨-, -, -, -, -, h⟩ := h
  rw [← Option.some.inj h]
  exact List.length_take_le ..

/-- The length is read from the start of what was received. -/
theorem declared_eq_write {m : Memory} {received : Bytes} (hlen : sizeofInt ≤ received.length) :
    declared received =
      let creds := m.write 0 received
      unpackBe32 [creds 0, creds 1, creds 2, creds 3] := by
  have hholds := Memory.holds_write m 0 received
  nth_rewrite 2 [← List.take_append_drop sizeofInt received] at hholds
  have hbytes := bytesAt_of_holds hholds.left
  rw [List.length_take, min_eq_left hlen] at hbytes
  exact congrArg unpackBe32 hbytes.symm

/-- **The credentials are acquired, and the buffer is wiped.** -/
theorem exists_run_acquireUserCredentials {token : CStr} (hx : s.heap.object 0 = some env.creds)
    (htoken : Copy s p .token token.bytes []) (hatt : s.heap.attempts = 1) :
    ∃ r t, (acquireUserCredentials credsPtr p).run env.machine.handle s = (.ok r, t) ∧
      (∀ j, 0 < j → j < s.heap.next → t.heap.object j = s.heap.object j) ∧
        t.rest = s.rest ∧ Parsed s (env.acquired token) r t ∧ Wiped env t ∧
          (env.reply = some token → env.Fits → t.heap.faults = s.heap.faults) := by
  have hpos : 0 < s.heap.next := Nat.zero_lt_of_lt htoken.lt_next
  have hsocket : socket.run env.machine.handle s = (.ok env.socket, s) := rfl
  rw [acquireUserCredentials, run_bind_ok hsocket, AuthEnv.acquired,
    GuestAgent.acquireUserCredentials]
  by_cases hs : (!env.socket) = true
  · rw [if_pos hs, if_pos hs]
    refine ⟨none, s, rfl, fun _ _ _ ↦ rfl, rfl, .failed (.of_next rfl rfl), ⟨0, ?_⟩,
      fun _ _ ↦ rfl⟩
    rw [List.replicate_zero, write_nil]
    exact hx
  have hexchange : (exchange token.bytes).run env.machine.handle s =
      (.ok (doAcquireUserCredentials env.toPamEnv (env.answer token.bytes)), s) := rfl
  rw [if_neg hs, if_neg hs, run_bind_ok htoken.run_cstr, run_bind_ok hexchange]
  cases hanswer : doAcquireUserCredentials env.toPamEnv (env.answer token.bytes) with
  | none =>
    obtain ⟨t, hrun, hx', hsame, -, hrest, hfaults⟩ :=
      exists_run_store env hx (List.replicate credsSize 0)
    refine ⟨none, t, ?_, fun j hj _ ↦ hsame.object j hj.ne', hrest,
      .failed (.of_next hsame.next hsame.released), ⟨_, hx'⟩,
      fun _ _ ↦ hfaults rfl List.length_replicate.le⟩
    dsimp only
    rw [overwriteN, run_bind_ok hrun, run_pure]
  | some received =>
    have hsize : received.length ≤ credsSize := length_le_of_doAcquire hanswer
    obtain ⟨t₁, hrun₁, hx₁, hsame₁, hatt₁, hrest₁, hfaults₁⟩ := exists_run_store env hx received
    have hpos₁ : 0 < t₁.heap.next := hsame₁.next ▸ hpos
    obtain ⟨r, t₂, hrun₂, hext₂, hparsed, hfaults₂⟩ := exists_run_parseCredentialsBuffer
      (Heap.data_of_object hx₁) hpos₁ (hatt₁.trans hatt) received.length
    obtain ⟨t₃, hrun₃, hx₃, hsame₃, -, hrest₃, hfaults₃⟩ := exists_run_store env
      ((hext₂.object 0 hpos₁).trans hx₁) (List.replicate received.length 0)
    rw [write_write_zeros] at hx₃
    refine ⟨r, t₃, ?_, fun j hj hj' ↦ ?_, (hrest₃.trans hext₂.rest).trans hrest₁,
      hparsed.sameStrings hsame₁ hsame₃ hpos, ⟨_, hx₃⟩, fun hreply hfits ↦ ?_⟩
    · dsimp only
      rw [run_bind_ok hrun₁, run_bind_ok hrun₂, overwriteN, run_bind_ok hrun₃, run_pure]
    · rw [hsame₃.object j hj.ne', hext₂.object j (hsame₁.next ▸ hj'), hsame₁.object j hj.ne']
    · have hwhole : Whole t₁ (env.stack.write 0 received) received.length := by
        refine ⟨⟨_, hx₁, rfl, hsize⟩, fun hlen ↦ ?_, hsize.trans_lt (by decide)⟩
        rw [← declared_eq_write hlen]
        exact (hfits token hreply received hanswer).resolve_left (not_lt.mpr hlen)
      rw [hfaults₃ rfl (by rw [List.length_replicate]; exact hsize), hfaults₂ hwhole,
        hfaults₁ rfl hsize]

/-! ### The end -/

theorem run_presetUser :
    presetUser.run env.machine.handle s = (.ok (env.preset s.rest), s) := rfl

theorem run_setUser (name : Bytes) : (setUser name).run env.machine.handle s = (.ok env.setUser,
    ⟨s.heap, if env.setUser = .success then { s.rest with user := some name } else s.rest⟩) := rfl

theorem run_setAuthtok (password : Bytes) :
    (setAuthtok password).run env.machine.handle s = (.ok env.setAuthtok, ⟨s.heap,
      if env.setAuthtok = .success then { s.rest with authtok := some password } else s.rest⟩) :=
  rfl

theorem run_syslog (record : PamLog) :
    (syslog record).run env.machine.handle s = (.ok (), ⟨s.heap, s.rest.record record⟩) := rfl

section Items

variable {q : Ptr} {username password rest' : Bytes}

/-- PAM is handed the strings, and the module keeps them. -/
theorem run_setItems (hname : Copy s p .username username rest)
    (hpassword : Copy s q .password password rest') :
    (setItems p q).run env.machine.handle s =
      (.ok (env.set s.rest username password).1,
        ⟨s.heap, (env.set s.rest username password).2⟩) := by
  rw [setItems, run_bind_ok hname.run_cstr, run_bind_ok (run_setUser _), AuthEnv.set]
  by_cases hu : env.setUser = .success
  · have hpassword' : Copy ⟨s.heap, { s.rest with user := some username }⟩ q .password password
      rest' := hpassword
    rw [if_pos hu, if_pos hu, if_neg (not_not.mpr hu), run_bind_ok hpassword'.run_cstr,
      run_bind_ok (run_setAuthtok _)]
    dsimp only
    by_cases hp : env.setAuthtok = .success
    · rw [if_pos hp, if_pos hp, if_neg (not_not.mpr hp), run_pure]
    · rw [if_neg hp, if_neg hp, if_pos hp, run_bind_ok (run_syslog _), run_pure]
  · rw [if_neg hu, if_neg hu, if_pos hu, run_bind_ok (run_syslog _), run_pure]

theorem run_handOver (hname : Copy s p .username username rest)
    (hpassword : Copy s q .password password rest') :
    (handOver p q).run env.machine.handle s =
      (.ok (env.accept s.rest username password).1,
        ⟨s.heap, (env.accept s.rest username password).2⟩) := by
  rw [handOver, run_bind_ok run_presetUser, AuthEnv.accept]
  cases env.preset s.rest with
  | none => exact run_setItems hname hpassword
  | some preset =>
    dsimp only
    rw [run_bind_ok hname.run_cstr]
    by_cases heq : username = preset
    · rw [if_pos heq, if_neg (not_not.mpr heq)]
      exact run_setItems hname hpassword
    · rw [if_neg heq, if_pos heq, run_bind_ok (run_syslog _), run_pure]

/-- A password is overwritten up to its NUL. -/
theorem exists_run_overwrite (h : Copy s ⟨i, 0⟩ .password password []) :
    ∃ t, (overwrite ⟨i, 0⟩).run env.machine.handle s = (.ok (), t) ∧ SameBut i s t ∧
      t.heap.released = s.heap.released ∧
        t.heap.Full i .password (List.replicate password.length 0 ++ [0]) := by
  have hsplit : s.heap.Holds i .password (password ++ [0]).length ([] ++ (password ++ [0])) :=
    h.full
  obtain ⟨t, hrun, hholds, hsame, hrel⟩ := hsplit.exists_run_store (m := env.machine) (ε := Empty)
    (show (0 : Int) = ([] : Bytes).length from rfl)
    (show (List.replicate password.length (0 : UInt8)).length = password.length by simp)
  refine ⟨t, by rw [overwrite, run_bind_ok h.run_cstr]; exact hrun, hsame, hrel, ?_⟩
  exact Heap.Holds.full hholds (by simp)

end Items

/-- One more object is freed. -/
theorem Freed.free {left : List ℕ} {r : Released Owner} (h : Freed n left s t) (hi : i ∈ left)
    (hsame : SameBut i t u) (hrel : u.heap.released = t.heap.released ++ [r]) (hr : Clean r)
    (hdead : ∃ x, u.heap.object i = some x ∧ x.live = false) : Freed n (left.erase i) s u where
  dead j hj hj' hleft := by
    by_cases hji : j = i
    · exact hji ▸ hdead
    · rw [hsame.object j hji]
      exact h.dead j hj (hsame.next ▸ hj') fun hmem ↦ hleft ((List.mem_erase_of_ne hji).mpr hmem)
  released := by
    obtain ⟨rs, hrs, hcount, hclean⟩ := h.released
    have hpos := List.length_pos_of_mem hi
    refine ⟨rs ++ [r], by rw [hrel, hrs, List.append_assoc], ?_, ?_⟩
    · rw [hsame.next, ← hcount, List.length_erase_of_mem hi, List.length_append,
        List.length_singleton]
      omega
    · exact List.forall_mem_append.mpr ⟨hclean, by simpa using hr⟩

end Memory

/-! ## A login -/

/-- Every string has been freed once, the password after it was overwritten, and the buffer is
wiped. -/
structure Tidy (env : AuthEnv) (items : Items) (t : AuthState) : Prop where
  freed : Freed 1 [] (start env items) t
  wiped : Wiped env t

section Login

variable (env : AuthEnv) (items : Items)

theorem start_object : (start env items).heap.object 0 = some env.creds := rfl

/-- The conversation has a reply, or not. -/
theorem exists_run_pamPrompt :
    ∃ r t, pamPrompt.run env.machine.handle (start env items) = (.ok (env.prompt, r), t) ∧
      t.rest = items ∧ t.heap.object 0 = some env.creds ∧ t.heap.faults = [] ∧
      ((env.reply = none ∧ r = none ∧ Freed 1 [] (start env items) t) ∨
        ∃ token, env.reply = some token ∧ r = some ⟨1, 0⟩ ∧ t.heap.next = 2 ∧
          t.heap.attempts = 1 ∧ t.heap.released = [] ∧ Copy t ⟨1, 0⟩ .token token.bytes []) := by
  have hprompt : prompt.run env.machine.handle (start env items) =
      (.ok (env.prompt, env.reply), start env items) := rfl
  rw [pamPrompt, run_bind_ok hprompt]
  cases env.reply with
  | none =>
    exact ⟨none, start env items, rfl, rfl, rfl, rfl, .inl ⟨rfl, rfl, .of_next rfl rfl⟩⟩
  | some token =>
    obtain ⟨t, hrun, hext, hnext, hatt, hrel, hfaults, hcopy⟩ := exists_run_newString
      (s := start env items) env .token Nat.zero_lt_one token.ne_zero token.length_lt rfl
    refine ⟨_, t, ?_, hext.rest, hext.object 0 Nat.zero_lt_one, hfaults,
      .inr ⟨token, rfl, rfl, hnext, hatt, hrel, hcopy⟩⟩
    dsimp only
    rw [run_bind_ok hrun]
    rfl

section Cleanup

variable {env items} {s : AuthState} {token rest username password : Bytes}

theorem clean_of_ne {owner : Owner} {bs : Bytes} (h : owner ≠ .password) :
    Clean ⟨owner, bs⟩ := fun h' ↦ absurd h' h

/-- The token is all there is to free. -/
theorem exists_run_cleanup_token (hfreed : Freed 1 [1] (start env items) s) (hwiped : Wiped env s)
    (htoken : Copy s ⟨1, 0⟩ .token token []) :
    ∃ t, (cleanup (some ⟨1, 0⟩) none).run env.machine.handle s = (.ok (), t) ∧ t.rest = s.rest ∧
      Tidy env items t ∧ t.heap.faults = s.heap.faults := by
  obtain ⟨t, hrun, hsame, hrel, hdead⟩ := exists_run_free env htoken.full
  refine ⟨t, ?_, hsame.rest, ⟨?_, hwiped.sameBut hsame Nat.zero_lt_one⟩, hsame.faults⟩
  · show (free ⟨1, 0⟩ >>= fun _ ↦ pure () : AuthProg Unit).run env.machine.handle s = (.ok (), t)
    rw [run_bind_ok hrun, run_pure]
  · exact hfreed.free (List.mem_singleton_self 1) hsame hrel (clean_of_ne (by decide)) hdead

/-- The token and the copies are freed. -/
theorem exists_run_cleanup (hfreed : Freed 1 [1, 3, 2] (start env items) s) (hwiped : Wiped env s)
    (htoken : Copy s ⟨1, 0⟩ .token token [])
    (husername : Copy s ⟨2, 0⟩ .username username rest)
    (hpassword : Copy s ⟨3, 0⟩ .password password []) :
    ∃ t, (cleanup (some ⟨1, 0⟩) (some (⟨2, 0⟩, ⟨3, 0⟩))).run env.machine.handle s = (.ok (), t) ∧
      t.rest = s.rest ∧ Tidy env items t ∧ t.heap.faults = s.heap.faults := by
  obtain ⟨t₁, hrun₁, hsame₁, hrel₁, hdead₁⟩ := exists_run_free env htoken.full
  obtain ⟨t₂, hrun₂, hsame₂, hrel₂, hfull₂⟩ :=
    exists_run_overwrite (hpassword.sameBut hsame₁ (by decide))
  obtain ⟨t₃, hrun₃, hsame₃, hrel₃, hdead₃⟩ := exists_run_free env hfull₂
  obtain ⟨t₄, hrun₄, hsame₄, hrel₄, hdead₄⟩ := exists_run_free env
    ((husername.sameBut hsame₁ (by decide)).sameBut (hsame₂.trans hsame₃) (by decide)).full
  have hclean : Clean ⟨.password, List.replicate password.length 0 ++ [0]⟩ := fun _ b hb ↦ by
    rw [← List.replicate_succ'] at hb
    exact (List.mem_replicate.mp hb).2
  rw [hrel₂] at hrel₃
  have hfreed₁ := hfreed.free (by decide) hsame₁ hrel₁ (clean_of_ne (by decide)) hdead₁
  have hfreed₃ := hfreed₁.free (by decide) (hsame₂.trans hsame₃) hrel₃ hclean hdead₃
  have hfreed₄ := hfreed₃.free (by decide) hsame₄ hrel₄ (clean_of_ne (by decide)) hdead₄
  refine ⟨t₄, ?_, ?_, ⟨hfreed₄, ?_⟩, ?_⟩
  · rw [cleanup, run_bind_ok hrun₁, run_bind_ok hrun₂, run_bind_ok hrun₃, hrun₄]
  · rw [hsame₄.rest, hsame₃.rest, hsame₂.rest, hsame₁.rest]
  · exact ((hwiped.sameBut hsame₁ (by decide)).sameBut (hsame₂.trans hsame₃) (by decide)).sameBut
      hsame₄ (by decide)
  · rw [hsame₄.faults, hsame₃.faults, hsame₂.faults, hsame₁.faults]

end Cleanup

theorem Freed.withItems {n : ℕ} {left : List ℕ} {s t : AuthState} (h : Freed n left s t)
    (items : Items) : Freed n left s ⟨t.heap, items⟩ := ⟨h.dead, h.released⟩

/-- The strings that are there before the decoder runs are there after it. -/
theorem Parsed.copy {s t : AuthState} {a : Option (Bytes × Bytes)} {r : Option (Ptr × Ptr)}
    {p : Ptr} {owner : Owner} {str rest : Bytes} (h : Parsed s a r t)
    (hobj : ∀ j, 0 < j → j < s.heap.next → t.heap.object j = s.heap.object j)
    (hcopy : Copy s p owner str rest) : Copy t p owner str rest := by
  have hnext : s.heap.next ≤ t.heap.next := by
    cases h with
    | failed h =>
      obtain ⟨rs, -, hcount, -⟩ := h.released
      omega
    | copied hnext => omega
  obtain ⟨j, rfl, hpos, hj, hstr, hlen, hfull⟩ := hcopy
  refine ⟨j, rfl, hpos, hj.trans_le hnext, hstr, hlen, ?_⟩
  rwa [Heap.Full, Heap.Holds, hobj j hpos hj]

/-- Before the cleanup, the token and the copies are left. -/
theorem Parsed.freed {s t : AuthState} {a : Option (Bytes × Bytes)} {r : Option (Ptr × Ptr)}
    (h : Parsed s a r t) (hnext : s.heap.next = 2) (hrel : s.heap.released = []) :
    Freed 1 (if r.isSome then [1, 3, 2] else [1]) (start env items) t := by
  cases h with
  | failed h =>
    obtain ⟨rs, hrs, hcount, hclean⟩ := h.released
    refine ⟨fun j hj hj' hleft ↦ h.dead j ?_ hj' List.not_mem_nil, rs, ?_, ?_, hclean⟩
    · have hne : j ≠ 1 := by simpa using hleft
      omega
    · rw [hrs, hrel]
      rfl
    · rw [hnext, List.length_nil] at hcount
      simp only [Option.isSome_none, Bool.false_eq_true, if_false, List.length_singleton]
      omega
  | copied hnext' hreleased =>
    refine ⟨fun j hj hj' hleft ↦ ?_, [], ?_, ?_, by simp⟩
    · simp only [Option.isSome_some, if_true, List.mem_cons, List.not_mem_nil] at hleft
      omega
    · rw [hreleased, hrel]
      rfl
    · rw [hnext', hnext]
      rfl

/-- A login comes to the verdict, and tidies up after itself.  Where the answer is as long as it
says, there is no fault. -/
theorem exists_exec :
    ∃ t, exec env items = (.ok (env.verdict items).1, t) ∧ t.rest = (env.verdict items).2 ∧
      Tidy env items t ∧ (env.Fits → t.heap.faults = []) := by
  obtain ⟨r, t, hrun, hrest, hx, hfaults, hr⟩ := exists_run_pamPrompt env items
  subst hrest
  have hwiped : Wiped env t := ⟨0, by rw [List.replicate_zero, write_nil]; exact hx⟩
  rw [exec, pamSmAuthenticate, run_bind_ok hrun, AuthEnv.verdict]
  dsimp only
  rcases hr with ⟨hreply, rfl, hfreed⟩ | ⟨token, hreply, rfl, hnext, hatt, hrel, htoken⟩ <;>
    rw [hreply]
  · -- there is nothing to free
    by_cases hprompt : env.prompt = .success
    · rw [if_pos hprompt, if_neg (not_not.mpr hprompt)]
      exact ⟨⟨t.heap, t.rest.record .invalidToken⟩, rfl, rfl, ⟨hfreed.withItems _, hwiped⟩,
        fun _ ↦ hfaults⟩
    · rw [if_neg hprompt, if_pos hprompt]
      exact ⟨⟨t.heap, t.rest.record (.noToken env.prompt)⟩, rfl, rfl, ⟨hfreed.withItems _, hwiped⟩,
        fun _ ↦ hfaults⟩
  · by_cases hprompt : env.prompt = .success
    · rw [if_pos hprompt, if_neg (not_not.mpr hprompt)]
      obtain ⟨c, t₁, hrun₁, hobj₁, hrest₁, hparsed, hwiped₁, hfaults₁⟩ :=
        exists_run_acquireUserCredentials hx htoken hatt
      have hfreed₁ := hparsed.freed env t.rest hnext hrel
      have htoken₁ := hparsed.copy hobj₁ htoken
      have hfits (h : env.Fits) : t₁.heap.faults = [] := (hfaults₁ hreply h).trans hfaults
      dsimp only
      rw [run_bind_ok hrun₁]
      generalize env.acquired token = a at hparsed
      cases hparsed with
      | failed h =>
        obtain ⟨u, hrun₂, hrest₂, htidy, hfaults₂⟩ := exists_run_cleanup_token
          (hfreed₁.withItems (t.rest.record .notAcquired)) hwiped₁ htoken₁
        refine ⟨u, ?_, hrest₂, htidy, fun h ↦ hfaults₂.trans (hfits h)⟩
        dsimp only
        rw [run_bind_ok (run_syslog _), hrest₁, run_bind_ok hrun₂, run_pure]
      | copied hnext' hreleased husername hpassword =>
        rw [hnext] at husername hpassword ⊢
        dsimp only
        rw [run_bind_ok (run_handOver husername hpassword), hrest₁]
        obtain ⟨u, hrun₂, hrest₂, htidy, hfaults₂⟩ := exists_run_cleanup
          (hfreed₁.withItems (env.accept t.rest _ _).2) hwiped₁ htoken₁ husername hpassword
        exact ⟨u, by rw [run_bind_ok hrun₂, run_pure], hrest₂, htidy,
          fun h ↦ hfaults₂.trans (hfits h)⟩
    · rw [if_neg hprompt, if_pos hprompt]
      have hfreed : Freed 1 [1] (start env t.rest) t := by
        refine ⟨fun j hj hj' hleft ↦ absurd (List.mem_singleton.mpr ?_) hleft, [], hrel, hnext.symm,
          by simp⟩
        omega
      obtain ⟨u, hrun₂, hrest₂, htidy, hfaults₂⟩ := exists_run_cleanup_token
        (hfreed.withItems (t.rest.record (.noToken env.prompt))) hwiped htoken
      exact ⟨u, by rw [run_bind_ok (run_syslog _), run_bind_ok hrun₂, run_pure], hrest₂, htidy,
        fun _ ↦ hfaults₂.trans hfaults⟩

/-- **A login comes to the verdict, and tidies up after itself**, without a fault, whatever
fails. -/
theorem exec_verdict {env : AuthEnv} (h : env.Fits) (items : Items) :
    ∃ t, exec env items = (.ok (env.verdict items).1, t) ∧ t.rest = (env.verdict items).2 ∧
      Tidy env items t ∧ t.heap.faults = [] := by
  obtain ⟨t, hexec, hrest, htidy, hfaults⟩ := exists_exec env items
  exact ⟨t, hexec, hrest, htidy, hfaults h⟩

end Login

/-- The agent answers with the login of `ann`, whose password is `pw`, and nothing fails. -/
def annAnswered : AuthEnv where
  toPamEnv := .calm fun _ ↦ 0
  prompt := .success
  reply := some ⟨[0x31], List.forall_mem_singleton.mpr (by decide), by decide⟩
  answer _ := [0, 0, 0, 3, 0x61, 0x6E, 0x6E, 0x70, 0x77, 0]
  getpwnam _ := false
  getUser := .success
  setUser := .success
  setAuthtok := .success
  garbage _ _ := 0

theorem fits_annAnswered : annAnswered.Fits := by
  intro token _ received hreceived
  obtain rfl := Option.some.inj hreceived
  refine .inr ?_
  show sizeofInt + declared (List.take credsSize [0, 0, 0, 3, 0x61, 0x6E, 0x6E, 0x70, 0x77, 0]) ≤
    (List.take credsSize [0, 0, 0, 3, 0x61, 0x6E, 0x6E, 0x70, 0x77, 0]).length
  decide +kernel

theorem exec_verdict_annAnswered : ∃ t,
    exec annAnswered ⟨none, none, []⟩ = (.ok .success, t) ∧
      t.rest.user = some [0x61, 0x6E, 0x6E] ∧ t.rest.authtok = some [0x70, 0x77] ∧
        Tidy annAnswered ⟨none, none, []⟩ t ∧ t.heap.faults = [] := by
  obtain ⟨t, hexec, hrest, htidy⟩ := exec_verdict fits_annAnswered ⟨none, none, []⟩
  have hcode : (annAnswered.verdict ⟨none, none, []⟩).1 = .success := by decide +kernel
  have huser : (annAnswered.verdict ⟨none, none, []⟩).2.user = some [0x61, 0x6E, 0x6E] := by
    decide +kernel
  have hauthtok : (annAnswered.verdict ⟨none, none, []⟩).2.authtok = some [0x70, 0x77] := by
    decide +kernel
  rw [hcode] at hexec
  rw [← hrest] at huser hauthtok
  exact ⟨t, hexec, huser, hauthtok, htidy⟩

end GuestAgent.PamAuth
