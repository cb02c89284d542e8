import GuestAgent.Credentials.Pam
import GuestAgent.Library.Heap

/-!
# What the PAM module reads

`parseCredentialsBuffer` says what the PAM module makes of a block.  Here is the same function as a
program over memory, `Pam.parseCredentialsBuffer`, which says as well where it looks: at the first
four bytes of the buffer, for the length of the user name, and at two slices, one for each of the
calls of `strndup`.  `run_parseCredentialsBuffer` says that both are the same function.

Nothing compares the length of the user name to what was received.  `contained_iff` says when the
function stays inside of the received bytes, or else reports an error: where the name fits, or the
block is too short for a length, or there is no memory for a copy.  A block the agent has packed may
be cut off at the end of the buffer, and then it depends on where.
-/

set_option autoImplicit false

namespace GuestAgent.Pam

open CString CHeap Effect Effect.Prog

/-- What the function does besides reading the buffer. -/
inductive PamAct where
  /-- Allocate the copy of the user name. -/
  | dupUsername
  /-- Allocate the copy of the password. -/
  | dupPassword
  | getpwnam (name : Bytes)

@[reducible] def PamAct.Resp : PamAct → Type := fun _ ↦ Bool

/-- A program of the PAM module.  There is one object, the buffer. -/
abbrev PamProg (α : Type) : Type := MemProg Unit PamAct.Resp Empty α

/-- The end of the function. -/
def dropDomain (username : Bytes) : PamProg Bytes := do
  if 0x40 ∈ username then
    let name := username.takeWhile (· ≠ 0x40)
    if ← ext (.getpwnam name) then return name
  return username

/-- `parse_credentials_buffer`: the user name and the password, or nothing where it returns `-1`.
The copies are kept by value. -/
def parseCredentialsBuffer (creds : Ptr) (len : ℕ) : PamProg (Option (Bytes × Bytes)) := do
  if len < sizeofInt then return none
  let userLen := toInt32 (unpackBe32 (← load creds sizeofInt))
  let username ← scan (creds.add sizeofInt) (toSize userLen)
  if !(← ext .dupUsername) then return none
  let passLen := toInt32 (toSize (len - sizeofInt - userLen))
  let password ← scan (creds.add (sizeofInt + userLen)) (toSize passLen)
  if !(← ext .dupPassword) then return none
  let username ← dropDomain username
  return some (username, password)

section Run

variable (getpwnam : Bytes → Bool) (env : PamEnv) (received : Bytes)

/-- What the function runs on. -/
def machine : Machine Unit PamAct.Resp Unit where
  allocates _ _ := true
  garbage _ := env.stack
  ext
    | .dupUsername, s => (env.dupUsername, s)
    | .dupPassword, s => (env.dupPassword, s)
    | .getpwnam name, s => (getpwnam name, s)

/-- The buffer: all of it is `recv`'s to write, and what it wrote may be read. -/
def creds : Object Unit where
  owner := ()
  size := credsSize
  readable := received.length
  data := env.stack.write 0 received
  live := true

/-- What the function starts from. -/
def start : MState Unit Unit := ⟨Heap.empty.push (creds env received), ()⟩

/-- Where the buffer is. -/
def credsPtr : Ptr := ⟨0, 0⟩

/-- A slice that is looked at lies in the first `n` bytes of the buffer. -/
def Inside (n : ℕ) : MemAct Unit PamAct → Prop
  | .load p k | .scan p k => 0 ≤ p.offset ∧ p.offset + k ≤ n
  | _ => True

/-- The function fails, or it reads received bytes only, and both of its slices lie in them. -/
def Contained : Prop :=
  let p := parseCredentialsBuffer credsPtr received.length
  let h := (machine getpwnam env).handle
  (p.run h (start env received)).1 = .ok none ∨
    (p.run h (start env received)).2.heap.faults = [] ∧
      ∀ e ∈ p.history h (start env received), Inside received.length e.1

end Run

/-! ## One function, two definitions -/

section Refines

variable {getpwnam : Bytes → Bool} {env : PamEnv} {received : Bytes}

theorem run_dupUsername (s : MState Unit Unit) :
    (ext .dupUsername : PamProg _).run (machine getpwnam env).handle s =
      (.ok env.dupUsername, s) := rfl

theorem run_dupPassword (s : MState Unit Unit) :
    (ext .dupPassword : PamProg _).run (machine getpwnam env).handle s =
      (.ok env.dupPassword, s) := rfl

theorem run_getpwnam (name : Bytes) (s : MState Unit Unit) :
    (ext (.getpwnam name) : PamProg _).run (machine getpwnam env).handle s =
      (.ok (getpwnam name), s) := rfl

theorem run_dropDomain (username : Bytes) (s : MState Unit Unit) :
    (dropDomain username).run (machine getpwnam env).handle s =
      (.ok (GuestAgent.dropDomain getpwnam username), s) := by
  rw [dropDomain, GuestAgent.dropDomain]
  by_cases hat : 0x40 ∈ username
  · rw [if_pos hat, if_pos hat]
    dsimp only
    rw [run_bind_ok (run_getpwnam _ s)]
    by_cases hlocal : getpwnam (username.takeWhile (· ≠ 0x40)) = true
    · rw [if_pos hlocal, if_pos hlocal]
      rfl
    · rw [if_neg hlocal, if_neg hlocal]
      rfl
  · rw [if_neg hat, if_neg hat]
    rfl

theorem start_data : (start env received).heap.data 0 = env.stack.write 0 received := rfl

/-- What is read at the start is the length. -/
theorem start_userLen :
    bytesAt ((start env received).heap.data credsPtr.object) credsPtr.offset sizeofInt =
      let creds := env.stack.write 0 received
      [creds 0, creds 1, creds 2, creds 3] := rfl

/-- **The program computes what the function of the same name does.** -/
theorem run_parseCredentialsBuffer :
    ((parseCredentialsBuffer credsPtr received.length).run (machine getpwnam env).handle
      (start env received)).1 =
      .ok (GuestAgent.parseCredentialsBuffer getpwnam env (env.stack.write 0 received)
        received.length) := by
  rw [parseCredentialsBuffer, GuestAgent.parseCredentialsBuffer]
  by_cases hlen : received.length < sizeofInt
  · rw [if_pos hlen, if_pos hlen]
    rfl
  · rw [if_neg hlen, if_neg hlen, run_bind_ok run_load_data, start_userLen]
    dsimp only
    rw [run_bind_ok run_scan_data, run_bind_ok (run_dupUsername _)]
    by_cases hu : (!env.dupUsername) = true
    · rw [if_pos hu, if_pos hu]
      rfl
    · rw [if_neg hu, if_neg hu, run_bind_ok run_scan_data, run_bind_ok (run_dupPassword _)]
      by_cases hp : (!env.dupPassword) = true
      · rw [if_pos hp, if_pos hp]
        rfl
      · rw [if_neg hp, if_neg hp, run_bind_ok (run_dropDomain _ _), run_pure]
        simp only [Heap.data_fault, credsPtr, Ptr.add, zero_add, start_data]

end Refines

/-! ## When the reads are contained -/

section Contained

variable {getpwnam : Bytes → Bool} {env : PamEnv} {received : Bytes}

theorem start_object : (start env received).heap.object 0 = some (creds env received) := rfl

theorem start_faults : (start env received).heap.faults = [] := rfl

theorem run_load_declared (hlen : sizeofInt ≤ received.length) :
    (load credsPtr sizeofInt : PamProg _).run (machine getpwnam env).handle (start env received) =
      (.ok (received.take sizeofInt), start env received) := by
  have hholds : (env.stack.write 0 received).Holds 0 (received.take sizeofInt) := by
    have hwrite := Memory.holds_write env.stack 0 received
    nth_rewrite 2 [← List.take_append_drop sizeofInt received] at hwrite
    exact hwrite.left
  have hbytes := bytesAt_of_holds hholds
  rw [List.length_take, min_eq_left hlen] at hbytes
  have hwithin : (creds env received).within credsPtr sizeofInt (creds env received).readable =
      true := Object.within_of_bounds rfl le_rfl (by simpa [creds, credsPtr] using hlen)
  rw [run_load start_object hwithin]
  exact congrArg (fun b ↦ (Except.ok b, start env received)) hbytes

/-- The slice of the user name is looked at, unless the function fails before. -/
theorem scan_mem_history (getpwnam : Bytes → Bool) (env : PamEnv)
    (hlen : sizeofInt ≤ received.length) :
    ∃ e ∈ (parseCredentialsBuffer credsPtr received.length).history (machine getpwnam env).handle
        (start env received),
      e.1 = .scan (credsPtr.add sizeofInt) (toSize (toInt32 (declared received))) := by
  rw [parseCredentialsBuffer, if_neg (by omega), history_bind_ok (run_load_declared hlen),
    history_bind_ok run_scan_data]
  exact ⟨_, List.mem_append_right _ (List.mem_append_left _ (List.mem_singleton_self _)), rfl⟩

/-- The function does not fail where there is memory. -/
theorem run_ne_none (hlen : sizeofInt ≤ received.length) (hu : env.dupUsername = true)
    (hp : env.dupPassword = true) :
    ((parseCredentialsBuffer credsPtr received.length).run (machine getpwnam env).handle
      (start env received)).1 ≠ .ok none := by
  rw [run_parseCredentialsBuffer]
  simp [GuestAgent.parseCredentialsBuffer, not_lt.mpr hlen, hu, hp]

theorem run_none (h : received.length < sizeofInt ∨ env.dupUsername = false ∨
    env.dupPassword = false) :
    ((parseCredentialsBuffer credsPtr received.length).run (machine getpwnam env).handle
      (start env received)).1 = .ok none := by
  rw [run_parseCredentialsBuffer]
  rcases h with hlen | hu | hp
  · simp [GuestAgent.parseCredentialsBuffer, hlen]
  · simp [GuestAgent.parseCredentialsBuffer, hu]
  · simp [GuestAgent.parseCredentialsBuffer, hp]

section Slice

variable {q : Int} {n : ℕ}

/-- A slice of what was received is read without a fault. -/
theorem run_scan_inside (hq : 0 ≤ q) (h : q + n ≤ received.length) :
    (scan (credsPtr.add q) n : PamProg _).run (machine getpwnam env).handle (start env received) =
      (.ok (strndup (env.stack.write 0 received) (0 + q) n), start env received) := by
  have hwithin : (creds env received).within (credsPtr.add q) n (creds env received).readable =
      true := by
    refine Object.within_of_bounds rfl ?_ ?_ <;> simp only [credsPtr, Ptr.add, creds] <;> omega
  exact run_scan_of_within start_object hwithin

theorem inside_scan (hq : 0 ≤ q) (h : q + n ≤ received.length) {s : MState Unit Unit} :
    ∀ e ∈ (scan (credsPtr.add q) n : PamProg _).history (machine getpwnam env).handle s,
      Inside received.length e.1 := by
  intro e he
  rw [List.mem_singleton.mp he]
  simp only [Inside, credsPtr, Ptr.add]
  omega

end Slice

theorem inside_ext (a : PamAct) {s : MState Unit Unit} :
    ∀ e ∈ (ext a : PamProg _).history (machine getpwnam env).handle s,
      Inside received.length e.1 := by
  intro e he
  rw [List.mem_singleton.mp he]
  trivial

theorem inside_dropDomain (username : Bytes) {s : MState Unit Unit} :
    ∀ e ∈ (dropDomain username).history (machine getpwnam env).handle s,
      Inside received.length e.1 := by
  rw [dropDomain]
  split
  · dsimp only
    rw [history_bind_ok (run_getpwnam _ s)]
    intro e he
    rcases List.mem_append.mp he with he | he
    · exact inside_ext _ e he
    · split at he <;> cases he
  · intro e he
    cases he

/-- Operation by operation, a name that fits is read without a fault. -/
theorem contained_of_le (hsize : received.length ≤ credsSize)
    (h : sizeofInt + declared received ≤ received.length) (hu : env.dupUsername = true)
    (hp : env.dupPassword = true) : Contained getpwnam env received := by
  have hlt : received.length < 2 ^ 31 := hsize.trans_lt (by decide)
  have hlen : sizeofInt ≤ received.length := by omega
  have huserLen : toInt32 (unpackBe32 (received.take sizeofInt)) = declared received := by
    show toInt32 (declared received) = declared received
    exact toInt32_of_bounds (by omega) (by omega)
  obtain ⟨passLen, hpass⟩ : ∃ k, received.length = sizeofInt + declared received + k :=
    ⟨_, (Nat.add_sub_of_le h).symm⟩
  have hpassLen : toInt32 (toSize (received.length - sizeofInt - (declared received : Int))) =
      passLen := by
    rw [toInt32_toSize, toInt32_of_bounds (by omega) (by omega)]
    omega
  refine .inr ?_
  rw [parseCredentialsBuffer, if_neg (not_lt.mpr hlen), run_bind_ok (run_load_declared hlen),
    history_bind_ok (run_load_declared hlen), huserLen]
  dsimp only
  rw [hpassLen, toSize_natCast (by omega), toSize_natCast (by omega),
    run_bind_ok (run_scan_inside (by omega) (by omega)),
    history_bind_ok (run_scan_inside (by omega) (by omega)), run_bind_ok (run_dupUsername _),
    history_bind_ok (run_dupUsername _), if_neg (by simpa using hu),
    run_bind_ok (run_scan_inside (by omega) (by omega)),
    history_bind_ok (run_scan_inside (by omega) (by omega)), run_bind_ok (run_dupPassword _),
    history_bind_ok (run_dupPassword _), if_neg (by simpa using hp),
    run_bind_ok (run_dropDomain _ _), history_bind_ok (run_dropDomain _ _)]
  refine ⟨start_faults, ?_⟩
  simp only [List.forall_mem_append]
  refine ⟨?_, inside_scan (by omega) (by omega), inside_ext _, inside_scan (by omega) (by omega),
    inside_ext _, inside_dropDomain _, by simp⟩
  intro e he
  rw [List.mem_singleton.mp he]
  simp only [Inside, credsPtr]
  omega

/-- Where nothing fails, the slice of the user name lies in what was received. -/
theorem le_of_contained (hlen : sizeofInt ≤ received.length) (hu : env.dupUsername = true)
    (hp : env.dupPassword = true) (h : Contained getpwnam env received) :
    sizeofInt + declared received ≤ received.length := by
  obtain ⟨-, hinside⟩ := h.resolve_left (run_ne_none hlen hu hp)
  obtain ⟨e, he, hscan⟩ := scan_mem_history getpwnam env hlen
  have hslice := hinside e he
  rw [hscan] at hslice
  have hend := hslice.2
  -- a length that does not fit an `int` is huge as a `size_t`
  have hint := toInt32_natCast (declared_lt received)
  have hsizet : declared received ≤ toSize (toInt32 (declared received)) := by
    have hlt := declared_lt received
    rw [hint, toSize]
    split <;> omega
  simp only [credsPtr, Ptr.add] at hend
  omega

/-- **When the function stays inside of what was received.** -/
theorem contained_iff (hsize : received.length ≤ credsSize) :
    Contained getpwnam env received ↔
      received.length < sizeofInt ∨ env.dupUsername = false ∨ env.dupPassword = false ∨
        sizeofInt + declared received ≤ received.length := by
  by_cases hfail : received.length < sizeofInt ∨ env.dupUsername = false ∨ env.dupPassword = false
  · exact iff_of_true (.inl (run_none hfail)) (by tauto)
  · simp only [not_or, not_lt, Bool.not_eq_false] at hfail
    obtain ⟨hlen, hu, hp⟩ := hfail
    constructor
    · intro h
      exact .inr (.inr (.inr (le_of_contained hlen hu hp h)))
    · intro h
      exact contained_of_le hsize (by simpa [hu, hp, not_lt.mpr hlen] using h) hu hp

/-- A block that arrived whole. -/
theorem contained_ann :
    ([0, 0, 0, 3, 0x61, 0x6E, 0x6E, 0x78, 0] : Bytes).length ≤ credsSize ∧
      Contained (fun _ ↦ false) (.calm fun _ ↦ 0) [0, 0, 0, 3, 0x61, 0x6E, 0x6E, 0x78, 0] :=
  ⟨by decide, (contained_iff (by decide)).mpr (.inr (.inr (.inr (by decide))))⟩

end Contained

/-- A length of five bytes, and one byte. -/
theorem not_contained :
    ([0, 0, 0, 5, 0x61] : Bytes).length ≤ credsSize ∧
      ¬ Contained (fun _ ↦ false) (.calm fun _ ↦ 0) [0, 0, 0, 5, 0x61] := by
  refine ⟨by decide, fun h ↦ ?_⟩
  exact absurd (le_of_contained (by decide) rfl rfl h) (by decide)

end GuestAgent.Pam
