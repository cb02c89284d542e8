import GuestAgent.Credentials.Block
import GuestAgent.Library.CString

/-!
# The PAM module's side of the credentials channel

The PAM module connects to the agent's socket, sends the token, and reads the credentials block with
a single `recv` into a buffer of 256 bytes.  It then takes the block apart: an `int` for the length
of the user name, that many bytes for the name, and the rest for the password.

The encoder has no limit on the lengths and the decoder does not check them, so what the decoder
makes of a block depends on whether it fits.  A block that does not is cut off by `recv`, and either
the password is cut short without notice, or the name reaches past the end of the buffer and the
password is read from wherever the stack happens to continue.  `faithful_iff` says exactly which
credentials survive the way: the ones with at most 252 bytes between them, four less than the buffer
has, and the absurdly long ones the encoder refuses.  One byte of the block may be cut off
unharmed, the pad byte at its end.

Credentials are kept with the fact that they contain no NUL, which the decoder takes for the end of
a string.
-/

set_option autoImplicit false

namespace GuestAgent

open CString

/-! ## The decoder -/

/-- What the PAM module meets on the way: which calls succeed, and what is on the stack. -/
structure PamEnv where
  socket : Bool
  connect : Bool
  setNonBlocking : Bool
  send : Bool
  /-- `select` returned in time and without an error. -/
  select : Bool
  recv : Bool
  /-- The two calls of `strndup` find memory. -/
  dupUsername : Bool
  dupPassword : Bool
  /-- What is in memory before the block is read, by offset from the buffer. -/
  stack : Memory

/-- `sizeof(creds)` in `acquire_user_credentials`. -/
def credsSize : ℕ := 0x100

/-- `sizeof(int)`. -/
def sizeofInt : ℕ := 4

/-- The end of `parse_credentials_buffer`: the domain is cut off where what comes before it names a
local account. -/
def dropDomain (getpwnam : Bytes → Bool) (username : Bytes) : Bytes :=
  if 0x40 ∈ username then
    let name := username.takeWhile (· ≠ 0x40)
    if getpwnam name then name else username
  else username

/-- `parse_credentials_buffer`: the user name and the password, or nothing where it returns `-1`. -/
def parseCredentialsBuffer (getpwnam : Bytes → Bool) (env : PamEnv) (creds : Memory) (len : ℕ) :
    Option (Bytes × Bytes) :=
  if len < sizeofInt then none
  else
    let userLen := toInt32 (unpackBe32 [creds 0, creds 1, creds 2, creds 3])
    let username := strndup creds sizeofInt (toSize userLen)
    if !env.dupUsername then none
    else
      -- the subtraction is one of `size_t`, its result is stored in an `int`
      let passLen := toInt32 (toSize (len - sizeofInt - userLen))
      let password := strndup creds (sizeofInt + userLen) (toSize passLen)
      if !env.dupPassword then none
      else some (dropDomain getpwnam username, password)

/-- `do_acquire_user_credentials`: what `recv` stored in the buffer, or nothing where it returns
`-1`.  The agent has sent the block in one piece. -/
def doAcquireUserCredentials (env : PamEnv) (block : Bytes) : Option Bytes :=
  if !env.connect then none
  else if !env.setNonBlocking then none
  else if !env.send then none
  else if !env.select then none
  else if !env.recv then none
  else some (block.take credsSize)

/-- `acquire_user_credentials`. -/
def acquireUserCredentials (getpwnam : Bytes → Bool) (env : PamEnv) (block : Bytes) :
    Option (Bytes × Bytes) :=
  if !env.socket then none
  else
    match doAcquireUserCredentials env block with
    | none => none
    | some received =>
      parseCredentialsBuffer getpwnam env (env.stack.write 0 received) received.length

/-! ## What it is for -/

/-- A user name and a password, of characters other than NUL. -/
structure Credentials where
  username : Text
  password : Text
  isChar_username : ∀ c ∈ username, IsChar c
  isChar_password : ∀ c ∈ password, IsChar c

namespace Credentials

/-- The arguments of the login command. -/
def args (c : Credentials) : Dict :=
  [(key "username", .str (.unicode c.username)), (key "password", .str (.unicode c.password))]

/-- The name the user logs in with: without the domain where that leaves a local account. -/
def account (c : Credentials) (getpwnam : Bytes → Bool) : Bytes :=
  let name := c.username.takeWhile (· ≠ 0x40)
  if 0x40 ∈ c.username ∧ getpwnam (encodeUtf8 name) then encodeUtf8 name else encodeUtf8 c.username

/-- Whatever the PAM module meets, if it succeeds then with these credentials. -/
def Faithful (c : Credentials) (getpwnam : Bytes → Bool) : Prop :=
  ∀ block, loginCredentials c.args = .ok block →
    ∀ env username password,
      acquireUserCredentials getpwnam env block = some (username, password) →
        username = c.account getpwnam ∧ password = encodeUtf8 c.password

end Credentials

/-! ## What the decoder makes of a block -/

/-- Every call succeeds. -/
def PamEnv.calm (stack : Memory) : PamEnv where
  socket := true
  connect := true
  setNonBlocking := true
  send := true
  select := true
  recv := true
  dupUsername := true
  dupPassword := true
  stack

/-- What `parse_credentials_buffer` yields where it returns `0`. -/
def decoded (getpwnam : Bytes → Bool) (creds : Memory) (len : ℕ) : Bytes × Bytes :=
  let userLen := toInt32 (unpackBe32 [creds 0, creds 1, creds 2, creds 3])
  (dropDomain getpwnam (strndup creds sizeofInt (toSize userLen)),
   strndup creds (sizeofInt + userLen) (toSize (toInt32 (len - sizeofInt - userLen))))

/-- What the decoder yields for a block, from what is on the stack. -/
def decodedBlock (getpwnam : Bytes → Bool) (stack : Memory) (block : Bytes) : Bytes × Bytes :=
  decoded getpwnam (stack.write 0 (block.take credsSize)) (block.take credsSize).length

theorem eq_decoded_of_parse {getpwnam : Bytes → Bool} {env : PamEnv} {creds : Memory} {len : ℕ}
    {r : Bytes × Bytes} (h : parseCredentialsBuffer getpwnam env creds len = some r) :
    r = decoded getpwnam creds len := by
  simp only [parseCredentialsBuffer, toInt32_toSize] at h
  split at h
  · cases h
  · split at h
    · cases h
    · split at h
      · cases h
      · simp only [decoded]
        exact (Option.some.inj h).symm

theorem eq_decoded_of_acquire {getpwnam : Bytes → Bool} {env : PamEnv} {block : Bytes}
    {r : Bytes × Bytes} (h : acquireUserCredentials getpwnam env block = some r) :
    r = decodedBlock getpwnam env.stack block := by
  rw [acquireUserCredentials] at h
  split at h
  · cases h
  · split at h
    · cases h
    · rename_i received hrecv
      have htake : received = block.take credsSize := by
        simp only [doAcquireUserCredentials] at hrecv
        repeat' split at hrecv
        all_goals cases hrecv
        rfl
      rw [eq_decoded_of_parse h, htake]
      rfl

theorem acquire_calm {getpwnam : Bytes → Bool} {stack : Memory} {block : Bytes}
    (h : sizeofInt ≤ block.length) :
    acquireUserCredentials getpwnam (.calm stack) block =
      some (decodedBlock getpwnam stack block) := by
  have hsize : sizeofInt ≤ credsSize := by decide
  simp [acquireUserCredentials, doAcquireUserCredentials, parseCredentialsBuffer, PamEnv.calm, h,
    hsize, toInt32_toSize, decodedBlock, decoded]

theorem loginCredentials_args (c : Credentials) :
    loginCredentials c.args =
      packCredentials (encodeUtf8 c.username) (encodeUtf8 c.password) := rfl

theorem takeWhile_ne_of_notMem {α : Type} [DecidableEq α] {a : α} {l : List α} (h : a ∉ l) :
    l.takeWhile (· ≠ a) = l :=
  List.takeWhile_eq_self_iff.mpr fun x hx ↦ by
    simpa using fun hxa : x = a ↦ h (hxa ▸ hx)

section Block

variable (getpwnam : Bytes → Bool) (stack : Memory) {username password : Bytes}

/-- The block a user name and a password are packed into. -/
def blockOf (username password : Bytes) : Bytes :=
  packBe32 username.length ++ (username ++ (password ++ [0]))

theorem packCredentials_eq (h : username.length < 2 ^ 32) :
    packCredentials username password = .ok (blockOf username password) := by
  rw [packCredentials, if_pos h, blockOf, List.append_assoc]

theorem packCredentials_error (h : 2 ^ 32 ≤ username.length) :
    packCredentials username password = .error .structError := by
  rw [packCredentials, if_neg (not_lt.mpr h)]

theorem take_blockOf : (blockOf username password).take credsSize =
    packBe32 username.length ++ (username ++ (password ++ [0])).take 252 := by
  rw [blockOf, List.take_append, length_packBe32, List.take_of_length_le (by simp [credsSize])]
  rfl

/-- The decoder's user name length is the encoder's, as far as an `int` keeps it. -/
theorem unpack_block (h : username.length < 2 ^ 32) {creds : Memory} {rest : Bytes}
    (hcreds : creds.Holds 0 (packBe32 username.length ++ rest)) :
    unpackBe32 [creds 0, creds 1, creds 2, creds 3] = username.length := by
  have hbytes : [creds 0, creds 1, creds 2, creds 3] = packBe32 username.length := by
    have hhead := hcreds.left
    have h0 : creds 0 = (packBe32 username.length)[0] := hhead 0 (by simp)
    have h1 : creds 1 = (packBe32 username.length)[1] := hhead 1 (by simp)
    have h2 : creds 2 = (packBe32 username.length)[2] := hhead 2 (by simp)
    have h3 : creds 3 = (packBe32 username.length)[3] := hhead 3 (by simp)
    rw [h0, h1, h2, h3]
    rfl
  rw [hbytes, unpackBe32_packBe32 h]

/-- Up to the pad byte, as much of the password as was received. -/
theorem takeWhile_take_password (hp : ∀ b ∈ password, b ≠ 0) (k : ℕ) :
    ((password ++ [0]).take k).takeWhile (· ≠ 0) = password.take k := by
  have hpad : (password ++ [0]).takeWhile (· ≠ 0) = password := by
    rw [List.takeWhile_append_of_pos (by simpa using hp)]
    exact List.append_nil _
  rw [← List.take_takeWhile, hpad]

/-- **A user name that fits the buffer is decoded**, and with it as much of the password as fits. -/
theorem decodedBlock_of_le (hlen : username.length ≤ 252) (hu : ∀ b ∈ username, b ≠ 0)
    (hp : ∀ b ∈ password, b ≠ 0) :
    decodedBlock getpwnam stack (blockOf username password) =
      (dropDomain getpwnam username, password.take (252 - username.length)) := by
  set rest := (password ++ [0]).take (252 - username.length) with hrest
  have htake : (blockOf username password).take credsSize =
      packBe32 username.length ++ (username ++ rest) := by
    rw [take_blockOf, List.take_append, List.take_of_length_le hlen]
  have hrestlen : rest.length ≤ 252 := by
    rw [hrest, List.length_take]
    omega
  set creds := stack.write 0 (packBe32 username.length ++ (username ++ rest))
  have hcreds : creds.Holds 0 (packBe32 username.length ++ (username ++ rest)) :=
    Memory.holds_write stack 0 _
  have hname : creds.Holds 4 (username ++ rest) := hcreds.right
  have huserLen : toInt32 username.length = username.length :=
    toInt32_of_bounds (by omega) (by omega)
  have hpassLen : ((packBe32 username.length ++ (username ++ rest)).length : Int) - sizeofInt -
      username.length = rest.length := by
    simp [sizeofInt]
  rw [decodedBlock, htake, decoded, unpack_block (by omega) hcreds, huserLen]
  simp only [hpassLen]
  rw [toInt32_of_bounds (by omega) (by omega), toSize_natCast (by omega), toSize_natCast (by omega)]
  have hreadName : strndup creds 4 username.length = username := by
    rw [strndup_of_holds hname (by simp), List.take_left,
      takeWhile_ne_of_notMem fun h0 ↦ hu 0 h0 rfl]
  have hreadRest : strndup creds (4 + username.length) rest.length =
      password.take (252 - username.length) := by
    rw [strndup_of_holds hname.right le_rfl, List.take_length, hrest, takeWhile_take_password hp]
  show (dropDomain getpwnam (strndup creds 4 username.length),
    strndup creds (4 + username.length) rest.length) = _
  rw [hreadName, hreadRest]

/-- The first byte of the decoded password where the user name does not fit: whatever is at the
address the name's length leads to, outside of the buffer or in the length itself. -/
theorem exists_head?_decodedBlock (password : Bytes) (hlen : 252 < username.length)
    (hlt : username.length < 2 ^ 32) :
    ∃ stack : Memory, (decodedBlock getpwnam stack (blockOf username password)).2.head? =
      some 0xFF := by
  have hlen256 : ((blockOf username password).take credsSize).length = credsSize := by
    rw [List.length_take, blockOf]
    simp [credsSize]
    omega
  have hint := toInt32_natCast hlt
  set userLen := toInt32 username.length
  set stack : Memory := fun i ↦ if i = 4 + userLen then 0xFF else 0 with hstack
  have hat : stack (4 + userLen) = 0xFF := if_pos rfl
  refine ⟨stack, ?_⟩
  set creds := stack.write 0 ((blockOf username password).take credsSize) with hdef
  have hcreds : creds.Holds 0
      (packBe32 username.length ++ (username ++ (password ++ [0])).take 252) := by
    rw [hdef, take_blockOf]
    exact Memory.holds_write stack 0 _
  -- the address is outside of the buffer, unless the length is one of the last four
  have hbyte : creds (4 + userLen) = 0xFF := by
    by_cases hneg : 4 + userLen < 0
    · rw [hdef, Memory.write_of_lt hneg, hat]
    · by_cases hpast : 256 ≤ 4 + userLen
      · rw [hdef, Memory.write_of_ge (by rw [hlen256]; simpa [credsSize] using hpast), hat]
      · obtain ⟨j, hj⟩ : ∃ j : ℕ, 4 + userLen = j := ⟨(4 + userLen).toNat, by omega⟩
        have hj4 : j < 4 := by
          split at hint <;> omega
        have hn : username.length = 2 ^ 32 - 4 + j := by
          split at hint <;> omega
        have hget := hcreds.left j (by simpa using hj4)
        rw [zero_add] at hget
        rw [hj, hget]
        exact (List.getElem?_eq_some_iff.mp (hn ▸ getElem?_packBe32_top j hj4)).2
  have hpassLen : 0 < toSize (toInt32 (credsSize - sizeofInt - userLen)) := by
    have hbounds := toInt32_bounds (credsSize - sizeofInt - userLen)
    refine toSize_pos (toInt32_ne_zero ?_) (by omega) (by omega)
    rintro ⟨k, hk⟩
    simp only [credsSize, sizeofInt] at hk
    split at hint <;> omega
  have hread := head?_strndup hpassLen (m := creds) (p := 4 + userLen) (by rw [hbyte]; decide)
  rw [decodedBlock, hlen256, decoded, unpack_block hlt hcreds]
  dsimp only
  rw [hbyte] at hread
  exact hread

end Block
/-! ## Which credentials survive -/

/-- Where there is no `@`, there is nothing to cut off. -/
theorem dropDomain_eq (getpwnam : Bytes → Bool) (username : Bytes) :
    dropDomain getpwnam username = if getpwnam (username.takeWhile (· ≠ 0x40))
      then username.takeWhile (· ≠ 0x40) else username := by
  rw [dropDomain]
  by_cases hat : 0x40 ∈ username
  · rw [if_pos hat]
  · rw [if_neg hat, takeWhile_ne_of_notMem hat, ite_self]

theorem dropDomain_encodeUtf8 (c : Credentials) (getpwnam : Bytes → Bool) :
    dropDomain getpwnam (encodeUtf8 c.username) = c.account getpwnam := by
  rw [dropDomain_eq, takeWhile_encodeUtf8 c.isChar_username, Credentials.account]
  by_cases hat : 0x40 ∈ c.username
  · simp only [hat, true_and]
  · simp only [hat, false_and, takeWhile_ne_of_notMem hat, ite_self]

section Survive

variable (c : Credentials) (getpwnam : Bytes → Bool)

theorem encode_username_ne : ∀ b ∈ encodeUtf8 c.username, b ≠ 0 :=
  fun b hb ↦ (encodeUtf8_ne c.isChar_username b hb).1

theorem encode_password_ne : ∀ b ∈ encodeUtf8 c.password, b ≠ 0 :=
  fun b hb ↦ (encodeUtf8_ne c.isChar_password b hb).1

/-- Where every call succeeds, faithful credentials come out as they are. -/
theorem decodedBlock_of_faithful {c : Credentials} {getpwnam : Bytes → Bool}
    (h : c.Faithful getpwnam) (hlt : (encodeUtf8 c.username).length < 2 ^ 32) (stack : Memory) :
    (decodedBlock getpwnam stack (blockOf (encodeUtf8 c.username) (encodeUtf8 c.password))).2 =
      encodeUtf8 c.password := by
  have hblock := (loginCredentials_args c).trans (packCredentials_eq hlt)
  have hfour : sizeofInt ≤ (blockOf (encodeUtf8 c.username) (encodeUtf8 c.password)).length := by
    rw [blockOf, List.length_append, length_packBe32, sizeofInt]
    omega
  exact (h _ hblock (.calm stack) _ _ (acquire_calm hfour)).2

/-- Past 252 bytes, the password is cut short. -/
theorem not_faithful_of_cut (hname : (encodeUtf8 c.username).length ≤ 252)
    (hsum : 252 < (encodeUtf8 c.username).length + (encodeUtf8 c.password).length) :
    ¬ c.Faithful getpwnam := by
  intro h
  have hpass := decodedBlock_of_faithful h (by omega) fun _ ↦ 0
  rw [decodedBlock_of_le getpwnam _ hname (encode_username_ne c) (encode_password_ne c)] at hpass
  have hcut := congrArg List.length hpass
  rw [List.length_take] at hcut
  omega

/-- Past the end of the buffer, the password may start with a byte no text has. -/
theorem not_faithful_of_past (hname : 252 < (encodeUtf8 c.username).length)
    (hlt : (encodeUtf8 c.username).length < 2 ^ 32) : ¬ c.Faithful getpwnam := by
  intro h
  obtain ⟨stack, hhead⟩ := exists_head?_decodedBlock getpwnam (encodeUtf8 c.password) hname hlt
  rw [decodedBlock_of_faithful h hlt stack] at hhead
  exact (encodeUtf8_ne c.isChar_password _ (List.mem_of_head? hhead)).2 rfl

theorem faithful_of_fits
    (hsum : (encodeUtf8 c.username).length + (encodeUtf8 c.password).length ≤ 252) :
    c.Faithful getpwnam := by
  intro block hblock env username password hacquire
  have hname : (encodeUtf8 c.username).length ≤ 252 := by omega
  rw [loginCredentials_args, packCredentials_eq (by omega)] at hblock
  cases hblock
  have hdec := decodedBlock_of_le getpwnam env.stack hname (encode_username_ne c)
    (encode_password_ne c)
  rw [← eq_decoded_of_acquire hacquire, List.take_of_length_le (by omega),
    dropDomain_encodeUtf8] at hdec
  exact ⟨congrArg Prod.fst hdec, congrArg Prod.snd hdec⟩

/-- **The credentials that survive the way.** -/
theorem faithful_iff :
    c.Faithful getpwnam ↔
      (encodeUtf8 c.username).length + (encodeUtf8 c.password).length ≤ 252 ∨
        2 ^ 32 ≤ (encodeUtf8 c.username).length := by
  constructor
  · intro h
    by_contra hlen
    obtain ⟨hsum, hlt⟩ := not_or.mp hlen
    rw [not_le] at hsum hlt
    by_cases hname : (encodeUtf8 c.username).length ≤ 252
    · exact not_faithful_of_cut c getpwnam hname hsum h
    · exact not_faithful_of_past c getpwnam (not_le.mp hname) hlt h
  · rintro (hsum | hlong)
    · exact faithful_of_fits c getpwnam hsum
    · -- the encoder refuses such a name, and nothing is sent
      intro block hblock
      rw [loginCredentials_args, packCredentials_error hlong] at hblock
      cases hblock

end Survive

/-- A short name with a password of 252 characters. -/
def longPassword : Credentials where
  username := u "a"
  password := List.replicate 252 0x78
  isChar_username := by decide
  isChar_password c hc := by
    rw [List.eq_of_mem_replicate hc]
    decide

/-- The last character of the password is lost, and the PAM module reports success. -/
theorem longPassword_not_faithful : ¬ longPassword.Faithful fun _ ↦ false := by
  have hlen : (encodeUtf8 longPassword.password).length = 252 := by
    rw [longPassword, encodeUtf8_ascii fun c hc ↦ by rw [List.eq_of_mem_replicate hc]; decide,
      List.length_map, List.length_replicate]
  exact not_faithful_of_cut longPassword _ (by decide) (by rw [hlen]; decide)

end GuestAgent
