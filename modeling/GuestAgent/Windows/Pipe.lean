import GuestAgent.Windows.CredentialsChannel

/-!
# A message on the pipe

`CredentialsChannelWait` reads one message from the pipe into its buffer and has it taken apart.
Whoever can open the pipe may write the message.  `message_safe_iff` says which messages of at most
1024 bytes are taken apart without a fault: the ones whose length is right, and, for want of memory,
some whose length is not.  A fault is a byte read that was not received, a string that is read or
written past its array, or a length that does not fit its type.

The listener here keeps a record of what it is called with.
-/

set_option autoImplicit false

namespace GuestAgent.CredentialsChannel

open CString CHeap Effect Effect.Prog

/-- What a listener is told: the user name, the password, and the domain if there is one. -/
structure Delivery where
  username : Wide
  password : Wide
  domain : Option Wide
  deriving DecidableEq, Repr

@[reducible] def Delivery.Resp : Delivery → Type := fun _ ↦ Unit

/-- A listener that records what it is told. -/
def recorder : Listener Delivery.Resp Empty := fun wzUserName wzPassword wzDomain ↦ do
  let username ← scanWide wzUserName wideSpace
  let password ← scanWide wzPassword wideSpace
  match wzDomain with
  | some wzDomain =>
    let domain ← scanWide wzDomain wideSpace
    ext ⟨username, password, some domain⟩
  | none => ext ⟨username, password, none⟩

/-- What the provider meets: its allocator, what is in memory, and whether anyone listens. -/
structure ProviderEnv where
  allocates : ℕ → ℕ → Bool
  garbage : ℕ → Memory
  listening : Bool

namespace ProviderEnv

variable (env : ProviderEnv)

def listener : Option (Listener Delivery.Resp Empty) :=
  if env.listening then some recorder else none

def machine : Machine Owner Delivery.Resp (List Delivery) where
  allocates := env.allocates
  garbage := env.garbage
  ext d ds := ((), ds ++ [d])

/-- `dwPipeBuffer`. -/
def dwPipeBuffer : ℕ := 1024

/-- `CredBuf` with a message in it. -/
def credBuf (message : Bytes) : Object Owner where
  owner := .buffer
  size := dwPipeBuffer
  readable := message.length
  data := (env.garbage 0).write 0 message
  live := true

def start (message : Bytes) : MState Owner (List Delivery) :=
  ⟨Heap.empty.push (env.credBuf message), []⟩

/-- What comes of a message. -/
def outcome (dec : Utf8Decoder) (message : Bytes) : MState Owner (List Delivery) :=
  ((parseCredentialsBuffer dec env.listener ⟨0, 0⟩ message.length).run env.machine.handle
    (env.start message)).2

/-- A message is taken apart without a fault. -/
def Safe (dec : Utf8Decoder) (message : Bytes) : Prop :=
  (env.outcome dec message).heap.faults = []

end ProviderEnv

/-! ## What the listener is told -/

/-- What a listener is told of a user name and a password, if it is told of them. -/
def delivery (username password : Wide) : Option Delivery :=
  let username := username.takeWhile (· ≠ 0)
  let password := password.takeWhile (· ≠ 0)
  if username = [] ∨ password = [] then none
  else if 0x40 ∈ username then
    some ⟨username.takeWhile (· ≠ 0x40), password, some (username.dropWhile (· ≠ 0x40)).tail⟩
  else some ⟨username, password, none⟩

section Recorder

variable (env : ProviderEnv) {s : MState Owner (List Delivery)} {i j : ℕ} {v q a b : Wide}

/-- The state after a delivery. -/
def delivered (s : MState Owner (List Delivery)) (d : Delivery) : MState Owner (List Delivery) :=
  { s with rest := s.rest ++ [d] }

theorem run_recorder_none (hu : s.heap.Full i .username (wideBytes v)) (hv : 0 ∈ v)
    (hvn : v.length ≤ wideSpace) (hp : s.heap.Full j .password (wideBytes q)) (hq : 0 ∈ q)
    (hqn : q.length ≤ wideSpace) :
    (recorder ⟨i, 0⟩ ⟨j, 0⟩ none).run env.machine.handle s =
      (.ok (), delivered s ⟨v.takeWhile (· ≠ 0), q.takeWhile (· ≠ 0), none⟩) := by
  rw [recorder, run_bind_ok (run_scanWide_full hu hv hvn),
    run_bind_ok (run_scanWide_full hp hq hqn)]
  rfl

theorem run_recorder_some (hu : s.heap.Full i .username (wideBytes (a ++ 0 :: b)))
    (ha : ∀ x ∈ a, x ≠ 0) (hb : 0 ∈ b) (hn : (a ++ 0 :: b).length ≤ wideSpace)
    (hp : s.heap.Full j .password (wideBytes q)) (hq : 0 ∈ q) (hqn : q.length ≤ wideSpace) :
    (recorder ⟨i, 0⟩ ⟨j, 0⟩ (some ⟨i, 2 * a.length + 2⟩)).run env.machine.handle s =
      (.ok (), delivered s ⟨a, q.takeWhile (· ≠ 0), some (b.takeWhile (· ≠ 0))⟩) := by
  have hname : (a ++ 0 :: b).takeWhile (· ≠ 0) = a := by
    rw [List.takeWhile_append_of_pos (by simpa using ha), List.takeWhile_cons_of_neg (by simp),
      List.append_nil]
  have hsplit : s.heap.Holds i .username (wideBytes (a ++ 0 :: b)).length
      (wideBytes (a ++ [0]) ++ wideBytes b) := by
    rw [← wideBytes_append, List.append_assoc]
    exact hu
  have hoff : (2 * a.length + 2 : Int) = (wideBytes (a ++ [0])).length := by
    rw [length_wideBytes, List.length_append]
    simp
    omega
  have hbn : b.length ≤ wideSpace := by
    rw [List.length_append, List.length_cons] at hn
    omega
  rw [recorder, run_bind_ok (run_scanWide_full hu (List.mem_append_right _ (by simp)) hn), hname,
    run_bind_ok (run_scanWide_full hp hq hqn)]
  simp only
  rw [run_bind_ok (hsplit.run_scanWide hoff hb hbn)]
  rfl

theorem run_notify {szUserName szPassword : Ptr} {szDomain : Option Ptr} {d : Delivery}
    (h : (recorder szUserName szPassword szDomain).run env.machine.handle s =
      (.ok (), delivered s d)) :
    (notify env.listener szUserName szPassword szDomain).run env.machine.handle s =
      (.ok (), { s with rest := s.rest ++ if env.listening then [d] else [] }) := by
  rw [ProviderEnv.listener]
  by_cases hl : env.listening = true
  · rw [if_pos hl, if_pos hl]
    exact h
  · rw [if_neg hl, if_neg hl, List.append_nil]
    rfl

theorem delivery_at (ha : ∀ x ∈ a, x ≠ 0 ∧ x ≠ 0x40) (hq : q.takeWhile (· ≠ 0) ≠ []) :
    delivery (a ++ 0x40 :: b) q =
      some ⟨a, q.takeWhile (· ≠ 0), some (b.takeWhile (· ≠ 0))⟩ := by
  have hname : (a ++ 0x40 :: b).takeWhile (· ≠ 0) = a ++ 0x40 :: b.takeWhile (· ≠ 0) := by
    rw [List.takeWhile_append_of_pos fun x hx ↦ by simpa using (ha x hx).1]
    rfl
  have hat : ∀ x ∈ a, decide (x ≠ 0x40) = true := fun x hx ↦ by simpa using (ha x hx).2
  rw [delivery, hname]
  simp only [hq, or_false]
  rw [if_neg (by simp), if_pos (by simp), List.takeWhile_append_of_pos hat,
    List.dropWhile_append_of_pos hat, List.takeWhile_cons_of_neg (by simp), List.append_nil,
    List.dropWhile_cons_of_neg (by simp), List.tail_cons]

/-- **What the listener is told**, and that the two strings stay as they are but for the `@`. -/
theorem exists_run_deliver (hu : s.heap.Full i .username (wideBytes v)) (hv : 0 ∈ v)
    (hvn : v.length ≤ wideSpace) (hp : s.heap.Full j .password (wideBytes q)) (hq : 0 ∈ q)
    (hqn : q.length ≤ wideSpace) (hij : i ≠ j) :
    ∃ t v', (deliver env.listener ⟨i, 0⟩ ⟨j, 0⟩).run env.machine.handle s = (.ok (), t) ∧
      t.heap.Full i .username (wideBytes v') ∧ 0 ∈ v' ∧ v'.length = v.length ∧
      t.heap.Full j .password (wideBytes q) ∧ t.heap.faults = s.heap.faults ∧
      t.rest = s.rest ++ if env.listening then (delivery v q).toList else [] := by
  by_cases hnil : v.takeWhile (· ≠ 0) = [] ∨ q.takeWhile (· ≠ 0) = []
  · refine ⟨s, v, run_deliver_of_nil env.listener hu hv hvn hp hq hqn hnil, hu, hv, rfl, hp, rfl,
      ?_⟩
    rw [delivery, if_pos hnil]
    simp
  · obtain ⟨hvne, hqne⟩ := not_or.mp hnil
    by_cases hat : 0x40 ∈ v.takeWhile (· ≠ 0)
    · obtain ⟨a, b, rfl, ha, hb⟩ := exists_split_at hat hv
      obtain ⟨t, hrun, hsame, hfull, -⟩ := exists_run_deliver_at (m := env.machine)
        env.listener hu ha hb hvn hp hq hqn hqne
      have hlen : (a ++ 0 :: b).length = (a ++ 0x40 :: b).length := by simp
      have hp' := hsame.holds hp hij.symm
      refine ⟨_, a ++ 0 :: b, hrun.trans (run_notify env (run_recorder_some env hfull
        (fun x hx ↦ (ha x hx).1) hb (hlen.trans_le hvn) hp' hq hqn)), hfull,
        List.mem_append_right _ (by simp), hlen, hp', hsame.faults, ?_⟩
      rw [delivery_at ha hqne, ← hsame.rest]
      rfl
    · refine ⟨_, v, (run_deliver_of_notMem env.listener hu hv hvn hp hq hqn hvne hqne hat).trans
        (run_notify env (run_recorder_none env hu hv hvn hp hq hqn)), hu, hv, rfl, hp, rfl, ?_⟩
      rw [delivery]
      simp only [hvne, hqne, hat, or_self, if_false]
      rfl

end Recorder

/-! ## Which messages are taken apart without a fault -/

section Outcome

variable (env : ProviderEnv) (dec : Utf8Decoder) {u p message : Bytes}

/-- A message whose length is right is in the buffer. -/
theorem received_start {hd : Bytes} (hhd : hd.length = 4) (hdecl : unpackBe32 hd = u.length)
    (hlen : (hd ++ (u ++ p)).length ≤ 1024) :
    Received (env.start (hd ++ (u ++ p))) 0 u p where
  lt_next := Nat.zero_lt_one
  length_le := by
    simp only [List.length_append, hhd] at hlen
    omega
  holds := ⟨_, hd, ⟨_, rfl, hlen, Memory.holds_write _ _ _⟩, hhd, hdecl⟩

/-- A message whose length is right. -/
theorem exists_of_declared_le (h : 4 + declared message ≤ message.length) :
    ∃ hd u p, message = hd ++ (u ++ p) ∧ hd.length = 4 ∧ unpackBe32 hd = u.length := by
  refine ⟨message.take 4, (message.drop 4).take (declared message),
    (message.drop 4).drop (declared message), ?_, ?_, ?_⟩
  · rw [List.take_append_drop, List.take_append_drop]
  · rw [List.length_take]
    omega
  · rw [List.length_take, List.length_drop, min_eq_left (by omega)]
    rfl

/-- **What comes of a message whose length is right**, where there is memory. -/
theorem outcome_eq (h : Received (env.start message) 0 u p)
    (hn : message.length = 4 + u.length + p.length)
    (h₁ : env.allocates 0 (2 * (u.length + 1)) = true)
    (h₂ : env.allocates 1 (2 * (p.length + 1)) = true) :
    (env.outcome dec message).heap.faults = [] ∧
      (env.outcome dec message).rest =
        if env.listening then (delivery (dec.decode u) (dec.decode p)).toList else [] := by
  have hlen := h.length_le
  obtain ⟨t, hconv, hrun⟩ := exists_run_parse (m := env.machine) dec env.listener h h₁ h₂
  have hu := dec.length_le u
  have hp := dec.length_le p
  have huspace := length_padded_le_wideSpace hu (by omega)
  have hpspace := length_padded_le_wideSpace hp (by omega)
  obtain ⟨t₁, v', hrun₁, hfull₁, hv', hvlen, hpass₁, hfaults₁, hrest₁⟩ :=
    exists_run_deliver env hconv.username (zero_mem_padded (by omega))
      huspace hconv.password (zero_mem_padded (by omega)) hpspace (by omega)
  obtain ⟨t₂, hrun₂, -, -, hfaults₂, hrest₂, -⟩ := exists_run_free_strings (m := env.machine)
    (ε := Empty) hfull₁ hv' (hvlen.trans_le huspace) hpass₁
    (zero_mem_padded (by omega)) hpspace (by omega)
  have houtcome : env.outcome dec message = t₂ := by
    rw [ProviderEnv.outcome, hn, hrun, run_bind_ok hrun₁, hrun₂]
  rw [houtcome]
  refine ⟨by rw [hfaults₂, hfaults₁, hconv.faults]; rfl, ?_⟩
  rw [hrest₂, hrest₁, hconv.rest]
  simp only [delivery, takeWhile_padded]
  rfl

theorem safe_of_declared_le (hlen : message.length ≤ 1024)
    (h : 4 + declared message ≤ message.length) : env.Safe dec message := by
  obtain ⟨hd, u, p, rfl, hhd, hdecl⟩ := exists_of_declared_le h
  have hrec := received_start env hhd hdecl hlen
  have hn : (hd ++ (u ++ p)).length = 4 + u.length + p.length := by
    simp only [List.length_append, hhd]
    omega
  rw [ProviderEnv.Safe]
  cases h₁ : env.allocates 0 (2 * (u.length + 1)) with
  | false =>
    rw [ProviderEnv.outcome, hn, run_parse_of_fail (m := env.machine) dec env.listener hrec h₁]
    rfl
  | true =>
    cases h₂ : env.allocates 1 (2 * (p.length + 1)) with
    | false =>
      obtain ⟨t, -, hrun, hfaults, -⟩ := exists_run_parse_of_fail (m := env.machine) dec
        env.listener hrec h₁ h₂
      rw [ProviderEnv.outcome, hn, hrun]
      exact hfaults
    | true => exact (outcome_eq env dec hrec hn h₁ h₂).1

/-- The length is read where there is one. -/
theorem run_start_header (h : 4 ≤ message.length) (hlen : message.length ≤ 1024)
    (f : Int → MemProg Owner Delivery.Resp Empty Unit) :
    (load ⟨0, 0⟩ 4 >>= fun raw ↦ toInt (ntohl (loadInt raw)).toNat >>= f).run env.machine.handle
        (env.start message) =
      (toInt (declared message) >>= f).run env.machine.handle (env.start message) := by
  have hhd : (message.take 4).length = 4 := by rw [List.length_take, min_eq_left h]
  have hbuf : (env.start message).heap.Holds 0 .buffer ProviderEnv.dwPipeBuffer
      ([] ++ (message.take 4 ++ message.drop 4)) := by
    rw [List.nil_append, List.take_append_drop]
    exact ⟨_, rfl, hlen, Memory.holds_write _ _ _⟩
  have hload := hbuf.run_load (m := env.machine) (ε := Empty)
    (show (0 : Int) = ([] : Bytes).length from rfl)
  rw [hhd] at hload
  rw [run_bind_ok hload, toNat_ntohl hhd, declared]

/-- Without memory for a string of the length that was sent, nothing is read but the length. -/
theorem safe_of_fail (h : 4 ≤ message.length) (hlen : message.length ≤ 1024)
    (hdecl : declared message + 1 < 2 ^ 31)
    (h₁ : env.allocates 0 (2 * (declared message + 1)) = false) : env.Safe dec message := by
  have hfail : (localAllocString .username (declared message) :
      MemProg Owner Delivery.Resp Empty _).run env.machine.handle (env.start message) =
      (.ok none, { env.start message with heap := (env.start message).heap.tried }) := by
    have h₁' : env.machine.allocates (env.start message).heap.attempts
      (2 * (declared message + 1)) = false := h₁
    rw [run_localAllocString .username hdecl, run_alloc_fail .username true h₁']
  rw [ProviderEnv.Safe, ProviderEnv.outcome, parseCredentialsBuffer, run_start_header env h hlen,
    run_bind_ok (run_toInt (by omega) (by omega)), run_bind_ok hfail]
  rfl

/-- A length that does not fit the message is noticed by nobody. -/
theorem not_safe_of_lt (h : 4 ≤ message.length) (hlen : message.length ≤ 1024)
    (hlt : message.length < 4 + declared message)
    (h₁ : declared message + 1 < 2 ^ 31 → env.allocates 0 (2 * (declared message + 1)) = true) :
    ¬ env.Safe dec message := by
  rw [ProviderEnv.Safe, ProviderEnv.outcome, parseCredentialsBuffer, run_start_header env h hlen]
  by_cases hint : declared message < 2 ^ 31
  · rw [run_bind_ok (run_toInt (by omega) (by omega))]
    by_cases hint' : declared message + 1 < 2 ^ 31
    · obtain ⟨t, hrun, -⟩ := exists_run_alloc_zeroed (m := env.machine) (s := env.start message)
        (o := Owner.username) (ε := Empty) (h₁ hint')
      rw [← run_localAllocString .username hint'] at hrun
      rw [run_bind_ok hrun]
      exact faults_run_toInt (by omega)
    · rw [localAllocString, bind_assoc]
      exact faults_run_toInt (by omega)
  · exact faults_run_toInt (by omega)

theorem not_safe_of_short (h : message.length < 4) : ¬ env.Safe dec message := by
  refine faults_run_load ?_
  have hobj : (env.start message).heap.object 0 = some (env.credBuf message) := rfl
  simp only [Heap.canRead, hobj]
  simp [Object.within, ProviderEnv.credBuf]
  omega

/-- **The messages that are taken apart without a fault.** -/
theorem message_safe_iff (hlen : message.length ≤ 1024) :
    env.Safe dec message ↔
      4 ≤ message.length ∧
        (4 + declared message ≤ message.length ∨
          declared message + 1 < 2 ^ 31 ∧
            env.allocates 0 (2 * (declared message + 1)) = false) := by
  constructor
  · intro hsafe
    have h4 : 4 ≤ message.length := not_lt.mp fun h ↦ not_safe_of_short env dec h hsafe
    refine ⟨h4, ?_⟩
    by_contra hno
    simp only [not_or, not_and, not_le, Bool.not_eq_false] at hno
    exact not_safe_of_lt env dec h4 hlen hno.1 hno.2 hsafe
  · rintro ⟨h4, hle | ⟨hint, hfail⟩⟩
    · exact safe_of_declared_le env dec hlen hle
    · exact safe_of_fail env dec h4 hlen hint hfail

end Outcome

/-- A provider with memory, and a listener. -/
def ProviderEnv.calm : ProviderEnv where
  allocates _ _ := true
  garbage _ _ := 0
  listening := true

theorem message_safe_ann :
    ([0, 0, 0, 3, 0x61, 0x6E, 0x6E, 0x78, 0] : Bytes).length ≤ 1024 ∧
      ProviderEnv.calm.Safe replacing [0, 0, 0, 3, 0x61, 0x6E, 0x6E, 0x78, 0] :=
  ⟨by decide, (message_safe_iff _ _ (by decide)).mpr ⟨by decide, .inl (by decide)⟩⟩

/-- A length of five bytes, and one byte. -/
theorem message_not_safe :
    ([0, 0, 0, 5, 0x61] : Bytes).length ≤ 1024 ∧
      ¬ ProviderEnv.calm.Safe replacing [0, 0, 0, 5, 0x61] :=
  ⟨by decide, not_safe_of_lt _ _ (by decide) (by decide) (by decide) fun _ ↦ rfl⟩

end GuestAgent.CredentialsChannel
