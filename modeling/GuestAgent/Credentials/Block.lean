import GuestAgent.Python.Utf8
import Mathlib.Algebra.Group.Nat.Defs

/-!
# The credentials block

A login command carries a user name and a password.  The agent packs them into one block of bytes,
which the credentials channel hands to the PAM module (on Linux) or to the credential provider (on
Windows): the length of the user name as a big-endian `unsigned int`, the user name, the password,
and one pad byte, which `struct.pack` makes a NUL.

`parseCommand` logs the block with the password masked.  The mask is computed from the packed block
itself, by `safeCredsRepr`.
-/

set_option autoImplicit false

namespace GuestAgent

/-- `struct.pack('>I', n)` for `n < 2 ^ 32`. -/
def packBe32 (n : Nat) : Bytes :=
  [.ofNat (n / 0x1000000), .ofNat (n / 0x10000), .ofNat (n / 0x100), .ofNat n]

/-- `struct.unpack('>I', b)[0]`, for four bytes. -/
def unpackBe32 (b : Bytes) : Nat := b.foldl (fun n x ↦ n * 0x100 + x.toNat) 0

/-- The length a block starts with, of the user name. -/
def declared (block : Bytes) : Nat := unpackBe32 (block.take 4)

@[simp] theorem length_packBe32 (n : Nat) : (packBe32 n).length = 4 := rfl

theorem unpackBe32_packBe32 {n : Nat} (h : n < 2 ^ 32) : unpackBe32 (packBe32 n) = n := by
  simp only [unpackBe32, packBe32, List.foldl_cons, List.foldl_nil, UInt8.toNat_ofNat']
  omega

theorem unpackBe32_lt (b : Bytes) : unpackBe32 b < 0x100 ^ b.length := by
  have hfold : ∀ n, b.foldl (fun n x ↦ n * 0x100 + x.toNat) n < (n + 1) * 0x100 ^ b.length := by
    induction b with
    | nil => simp
    | cons x b ih =>
      intro n
      have hx : x.toNat < 0x100 := x.toNat_lt
      calc (x :: b).foldl (fun n x ↦ n * 0x100 + x.toNat) n
          < (n * 0x100 + x.toNat + 1) * 0x100 ^ b.length := ih _
        _ ≤ ((n + 1) * 0x100) * 0x100 ^ b.length := Nat.mul_le_mul_right _ (by omega)
        _ = (n + 1) * 0x100 ^ (x :: b).length := by
          rw [List.length_cons, Nat.pow_succ', Nat.mul_assoc]
  simpa [unpackBe32] using hfold 0

theorem declared_lt (block : Bytes) : declared block < 2 ^ 32 := by
  have hlen : (block.take 4).length ≤ 4 := List.length_take_le ..
  calc declared block < 0x100 ^ (block.take 4).length := unpackBe32_lt _
    _ ≤ 0x100 ^ 4 := Nat.pow_le_pow_right (by decide) hlen
    _ = 2 ^ 32 := by decide

/-- The encodings of the four greatest lengths. -/
theorem getElem?_packBe32_top : ∀ j < 4, (packBe32 (2 ^ 32 - 4 + j))[j]? = some 0xFF := by decide

/-- `struct.pack('>I%ds%ds' % (len(username), len(password) + 1), len(username), username,
password)`. -/
def packCredentials (username password : Bytes) : Except PyExn Bytes :=
  if username.length < 2 ^ 32 then
    .ok (packBe32 username.length ++ username ++ (password ++ [0]))
  else .error .structError

/-- The credentials block a login command with these arguments is packed into. -/
def loginCredentials (args : Dict) : Except PyExn Bytes := do
  let username ← (← args.getItem (key "username")).encode
  let password ← (← args.getItem (key "password")).encode
  packCredentials username password

/-- What a block of the agent is made of. -/
theorem exists_of_loginCredentials {args : Dict} {block : Bytes}
    (h : loginCredentials args = .ok block) :
    ∃ username password, username.length < 2 ^ 32 ∧
      block = packBe32 username.length ++ (username ++ (password ++ [0])) := by
  have hpack : ∃ username password, packCredentials username password = .ok block := by
    simp only [loginCredentials, bind, Except.bind] at h
    repeat' split at h
    all_goals first
      | cases h
      | exact ⟨_, _, h⟩
  obtain ⟨username, password, hpack⟩ := hpack
  rw [packCredentials] at hpack
  split at hpack
  · rename_i hlt
    refine ⟨username, password, hlt, ?_⟩
    rw [← List.append_assoc]
    exact (Except.ok.inj hpack).symm
  · cases hpack

/-- The bytes whose `repr` stands in the log for the block: the password is replaced by eight
asterisks. -/
def safeCredsRepr (creds : Bytes) : Bytes :=
  let intLen := 4
  let userLen := unpackBe32 (creds.take intLen)
  let passLen : Int := creds.length - userLen - intLen - 1
  let cut := userLen + intLen
  creds.take cut ++ ascii "********" ++ creds.drop (cut + passLen).toNat

/-- **The mask covers the password**, whatever the lengths are. -/
theorem safeCredsRepr_eq {username : Bytes} (h : username.length < 2 ^ 32) (password : Bytes) :
    safeCredsRepr (packBe32 username.length ++ username ++ (password ++ [0])) =
      packBe32 username.length ++ username ++ ascii "********" ++ [0] := by
  set head := packBe32 username.length ++ username with hhead
  have hlen : head.length = username.length + 4 := by
    rw [hhead, List.length_append, length_packBe32, Nat.add_comm]
  have hfour : (head ++ (password ++ [0])).take 4 = packBe32 username.length := by
    rw [hhead, List.append_assoc]
    exact List.take_left' (length_packBe32 _)
  have hlast : (head ++ password).length = (((username.length + 4 : ℕ) : Int) +
      (((head ++ (password ++ [0])).length : Int) - username.length - (4 : ℕ) - 1)).toNat := by
    simp only [List.length_append, List.length_singleton, hlen]
    omega
  rw [safeCredsRepr, hfour, unpackBe32_packBe32 h, List.take_left' hlen, ← hlast,
    ← List.append_assoc head, List.drop_left]

example : (packCredentials (ascii "ann") (ascii "pw")).map safeCredsRepr =
    .ok ([0, 0, 0, 3] ++ ascii "ann********" ++ [0]) := by rfl

end GuestAgent
