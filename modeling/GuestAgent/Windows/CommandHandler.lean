import GuestAgent.Library.Effect
import GuestAgent.Library.Transition
import GuestAgent.Python.Object

/-!
# The login command on Windows

Before it writes the credentials to the pipe, `CommandHandlerWin.login` simulates a secure attention
sequence, so that there is someone to read them.  For that it sets a policy in the registry to 3 and
sets it back.  The value it sets back is the one that was there; where there was none, or something
goes wrong in between, the policy stays at 3.  `policy_run_iff` says over any run of commands when
the registry is as it was.

The credentials are written in at most three attempts, and an attempt may fail after they were
written, when there is no reply.  `pipe_run` says which of them arrive, over any run: those of the
logins that find the desktop locked, in order, and as often as an attempt was made that did not fail
before.  `arrivals_of_heard` says that this is once where every message that was written is replied
to.
-/

set_option autoImplicit false

namespace GuestAgent.CommandHandlerWin

open Effect Effect.Prog Transition

/-! ## The command handler -/

/-- A value in the registry. -/
inductive RegValue where
  | dword (n : ℕ)
  /-- A value of another type, with what tells it from others. -/
  | other (tag : ℕ)
  deriving DecidableEq, Repr

/-- What `login` writes to the log. -/
inductive LoginLog where
  /-- `"Not unlocking screen because it is not locked"` -/
  | notLocked
  /-- `"Simulating a secure attention sequence (SAS)."` -/
  | simulating
  /-- `"Failed to perform SAS"` -/
  | failedSAS
  /-- `"Credentials were written to pipe."` -/
  | written
  /-- `"Error writing credentials to pipe [%d/%d] (error = %d)"` -/
  | errorWriting (retries of error : ℕ)
  deriving DecidableEq, Repr

/-- What the command handler does. -/
inductive WinAct where
  /-- `self._dr.desktopLocked`. -/
  | desktopLocked
  /-- `find_library('sas') is not None`. -/
  | findSas
  | openKey
  /-- `QueryValueEx`, of `SoftwareSASGeneration`. -/
  | queryValue
  /-- `SetValueEx`, as a `REG_DWORD`. -/
  | setValue (value : RegValue)
  | sendSAS
  | sleep
  | callNamedPipe (credentials : Bytes)
  | getLastError
  | log (record : LoginLog)

@[reducible] def WinAct.Resp : WinAct → Type
  | desktopLocked | findSas => Bool
  | openKey | setValue _ | sendSAS | callNamedPipe _ => Except PyExn Unit
  | queryValue => Except PyExn RegValue
  | getLastError => ℕ
  | sleep | log _ => Unit

/-- A piece of the command handler. -/
abbrev WinM := Prog WinAct.Resp PyExn

/-- An operation that may raise. -/
def call {α : Type} (p : WinM (Except PyExn α)) : WinM α := do
  let r ← p
  ofExcept r

def desktopLocked : WinM Bool := perform WinAct.desktopLocked

def findSas : WinM Bool := perform WinAct.findSas

def openKey : WinM Unit := call (perform WinAct.openKey)

def queryValue : WinM RegValue := call (perform WinAct.queryValue)

def setValue (value : RegValue) : WinM Unit := call (perform (WinAct.setValue value))

def sendSAS : WinM Unit := call (perform WinAct.sendSAS)

def sleep : WinM Unit := perform WinAct.sleep

def callNamedPipe (credentials : Bytes) : WinM Unit :=
  call (perform (WinAct.callNamedPipe credentials))

def getLastError : WinM ℕ := perform WinAct.getLastError

def log (record : LoginLog) : WinM Unit := perform (WinAct.log record)

/-- The value there is, or `None`: `QueryValueEx` raises where there is none. -/
def oldValue : WinM (Option RegValue) :=
  tryExcept (do return some (← queryValue)) fun
    | .osError => return none
    | e => raise e

/-- `_setSoftwareSASPolicy`. -/
def setSoftwareSASPolicy : Option RegValue → WinM (Option RegValue)
  | some value => do
    openKey
    let old ← oldValue
    setValue value
    return old
  | none => return none

/-- `_performSAS`. -/
def performSAS : WinM Unit := do
  if ← findSas then
    log .simulating
    let old ← setSoftwareSASPolicy (some (.dword 3))
    sendSAS
    let _ ← setSoftwareSASPolicy old

/-- `RETIRES`. -/
def maxRetries : ℕ := 3

/-- The loop of `login`, with so many attempts left. -/
def writeCredentials (credentials : Bytes) : ℕ → WinM Unit
  | 0 => return
  | left + 1 => do
    let written ← tryExcept
      (do
        sleep
        callNamedPipe credentials
        log .written
        return true)
      fun _ ↦ do
        log (.errorWriting (maxRetries - left) maxRetries (← getLastError))
        return false
    if !written then writeCredentials credentials left

/-- `login`. -/
def login (credentials : Bytes) : WinM Unit := do
  if !(← desktopLocked) then
    log .notLocked
  else
    tryExcept performSAS fun _ ↦ log .failedSAS
    writeCredentials credentials maxRetries

/-! ## What it runs on -/

/-- What becomes of a `CallNamedPipe`, which writes a message and waits for a reply. -/
inductive PipeCall where
  | replied
  /-- The message was written, and the call fails all the same. -/
  | unanswered
  /-- It fails before that. -/
  | failed
  deriving DecidableEq, Repr

/-- What a login meets: whether there is a `sas` library, which of the calls for the registry and of
`SendSAS` succeed, counted from the start, and what becomes of the attempts to write. -/
structure WinEnv where
  sas : Bool
  ok : ℕ → Bool
  attempt : ℕ → PipeCall
  error : ℕ → ℕ

structure WinState where
  locked : Bool
  policy : Option RegValue
  /-- What was written to the pipe. -/
  pipe : List Bytes
  /-- The calls for the registry so far, and the attempts. -/
  calls : ℕ
  attempts : ℕ
  log : List LoginLog

namespace WinState

/-- One more call, which raises `OSError` where it fails. -/
def count (s : WinState) : WinState := { s with calls := s.calls + 1 }

/-- What `SetValueEx` does to a value: only a number is converted. -/
def set (s : WinState) : RegValue → Except PyExn Unit × WinState
  | .dword n => (.ok (), { s with policy := some (.dword n) })
  | .other _ => (.error .valueError, s)

def handle (env : WinEnv) : (a : WinAct) → WinState → a.Resp × WinState
  | .desktopLocked, s => (s.locked, s)
  | .findSas, s => (env.sas, s)
  | .openKey, s | .sendSAS, s => (if env.ok s.calls then .ok () else .error .osError, s.count)
  | .queryValue, s =>
    (if env.ok s.calls then s.policy.elim (.error .osError) .ok else .error .osError, s.count)
  | .setValue value, s =>
    if env.ok s.calls then s.count.set value else (.error .osError, s.count)
  | .sleep, s => ((), s)
  | .callNamedPipe credentials, s =>
    let t := { s with attempts := s.attempts + 1 }
    match env.attempt s.attempts with
    | .replied => (.ok (), { t with pipe := s.pipe ++ [credentials] })
    | .unanswered => (.error .osError, { t with pipe := s.pipe ++ [credentials] })
    | .failed => (.error .osError, t)
  | .getLastError, s => (env.error s.attempts, s)
  | .log record, s => ((), { s with log := s.log ++ [record] })

end WinState

/-- What happens to the agent. -/
inductive WinStep where
  /-- A login command. -/
  | login (env : WinEnv) (credentials : Bytes)
  /-- A session event locks the desktop, or unlocks it. -/
  | session (locked : Bool)

def step (s : WinState) : WinStep → WinState
  | .login env credentials =>
    ((login credentials).run (WinState.handle env) { s with calls := 0, attempts := 0 }).2
  | .session locked => { s with locked }

/-- The policy is set to 3. -/
def WinEnv.Sets (env : WinEnv) : Prop := env.sas = true ∧ env.ok 0 = true ∧ env.ok 2 = true

/-- The policy is a number, and nothing fails on the way to set it back. -/
def WinEnv.SetsBack (env : WinEnv) (policy : Option RegValue) : Prop :=
  (∃ n, policy = some (.dword n)) ∧ env.ok 1 = true ∧ env.ok 3 = true ∧ env.ok 4 = true ∧
    env.ok 6 = true

/-- The policy is as before: it is not touched, or it is 3 anyway, or it is set back. -/
def WinEnv.Restores (env : WinEnv) (policy : Option RegValue) : Prop :=
  env.Sets → policy = some (.dword 3) ∨ env.SetsBack policy

/-- A step that does not change the registry. -/
def Restores (s : WinState) : WinStep → Prop
  | .login env _ => s.locked = true → env.Restores s.policy
  | .session _ => True

/-! ## The policy -/

section Policy

variable {env : WinEnv} {s t : WinState}

theorem run_call {α : Type} {p : WinM (Except PyExn α)} {r : Except PyExn α} {t : WinState}
    (hp : p.run (WinState.handle env) s = (.ok r, t)) :
    (call p).run (WinState.handle env) s = (r, t) := by
  rw [call, run_bind_ok hp, run_ofExcept]

theorem run_oldValue : oldValue.run (WinState.handle env) s =
    (.ok (if env.ok s.calls then s.policy else none), s.count) := by
  have hquery : queryValue.run (WinState.handle env) s =
      (if env.ok s.calls then s.policy.elim (.error .osError) .ok else .error .osError, s.count) :=
    run_call rfl
  rw [oldValue, run_tryExcept, run_bind, hquery]
  by_cases hok : env.ok s.calls = true
  · rw [if_pos hok, if_pos hok]
    cases s.policy <;> rfl
  · rw [if_neg hok, if_neg hok]
    rfl

/-- The state after so many calls. -/
def WinState.after (s : WinState) (k : ℕ) : WinState := { s with calls := s.calls + k }

/-- Setting a value fails at the first call or at the last one, or the value is of another type. -/
theorem run_setSoftwareSASPolicy (env : WinEnv) (s : WinState) (value : RegValue) :
    (setSoftwareSASPolicy (some value)).run (WinState.handle env) s =
      if env.ok s.calls then
        if env.ok (s.calls + 2) then
          (((s.after 3).set value).1.map fun _ ↦ if env.ok (s.calls + 1) then s.policy else none,
            ((s.after 3).set value).2)
        else (.error .osError, s.after 3)
      else (.error .osError, s.after 1) := by
  have hopen : openKey.run (WinState.handle env) s =
      (if env.ok s.calls then .ok () else .error .osError, s.after 1) := run_call rfl
  have hold : oldValue.run (WinState.handle env) (s.after 1) =
    (.ok (if env.ok (s.calls + 1) then s.policy else none), s.after 2) := run_oldValue
  have hset : (setValue value).run (WinState.handle env) (s.after 2) =
      if env.ok (s.calls + 2) then (s.after 3).set value else (.error .osError, s.after 3) :=
    run_call (by rw [run_perform]; rfl)
  rw [setSoftwareSASPolicy]
  by_cases h0 : env.ok s.calls = true
  · rw [if_pos h0] at hopen ⊢
    rw [run_bind_ok hopen, run_bind_ok hold, run_bind, hset]
    by_cases h2 : env.ok (s.calls + 2) = true
    · rw [if_pos h2, if_pos h2]
      cases value <;> rfl
    · rw [if_neg h2, if_neg h2]
  · rw [if_neg h0] at hopen ⊢
    exact run_bind_error hopen

/-- `t` is `s` but for the registry, the log and the count of the calls. -/
structure SameButPolicy (s t : WinState) : Prop where
  locked : t.locked = s.locked
  pipe : t.pipe = s.pipe
  attempts : t.attempts = s.attempts

theorem SameButPolicy.trans {u : WinState} (h : SameButPolicy s t) (h' : SameButPolicy t u) :
    SameButPolicy s u :=
  ⟨h'.locked.trans h.locked, h'.pipe.trans h.pipe, h'.attempts.trans h.attempts⟩

/-- A value that was there is set back if it is a number and nothing fails. -/
theorem exists_run_setBack (env : WinEnv) (old : Option RegValue) (s : WinState) :
    ∃ r t, (setSoftwareSASPolicy old).run (WinState.handle env) s = (r, t) ∧ SameButPolicy s t ∧
      ((∃ n, old = some (.dword n) ∧ t.policy = some (.dword n)) ∧ env.ok s.calls = true ∧
          env.ok (s.calls + 2) = true ∨
        t.policy = s.policy ∧
          ¬ ((∃ n, old = some (.dword n)) ∧ env.ok s.calls = true ∧
            env.ok (s.calls + 2) = true)) := by
  cases old with
  | none => exact ⟨_, s, rfl, ⟨rfl, rfl, rfl⟩, .inr ⟨rfl, by simp⟩⟩
  | some value =>
    rw [run_setSoftwareSASPolicy]
    by_cases h0 : env.ok s.calls = true
    · by_cases h2 : env.ok (s.calls + 2) = true
      · rw [if_pos h0, if_pos h2]
        cases value with
        | dword n => exact ⟨_, _, rfl, ⟨rfl, rfl, rfl⟩, .inl ⟨⟨n, rfl, rfl⟩, h0, h2⟩⟩
        | other tag => exact ⟨_, _, rfl, ⟨rfl, rfl, rfl⟩, .inr ⟨rfl, by simp⟩⟩
      · rw [if_pos h0, if_neg h2]
        exact ⟨_, _, rfl, ⟨rfl, rfl, rfl⟩, .inr ⟨rfl, fun h ↦ h2 h.2.2⟩⟩
    · rw [if_neg h0]
      exact ⟨_, _, rfl, ⟨rfl, rfl, rfl⟩, .inr ⟨rfl, fun h ↦ h0 h.2.1⟩⟩

/-- What comes after the policy was set. -/
theorem exists_run_sendSAS (env : WinEnv) (old : Option RegValue) (h : s.calls = 3) :
    ∃ r t, (sendSAS >>= fun _ ↦ setSoftwareSASPolicy old >>= fun _ ↦ pure ()).run
        (WinState.handle env) s = (r, t) ∧ SameButPolicy s t ∧
      ((∃ n, old = some (.dword n) ∧ t.policy = some (.dword n)) ∧ env.ok 3 = true ∧
          env.ok 4 = true ∧ env.ok 6 = true ∨
        t.policy = s.policy ∧ ¬ ((∃ n, old = some (.dword n)) ∧ env.ok 3 = true ∧
          env.ok 4 = true ∧ env.ok 6 = true)) := by
  have hsend : sendSAS.run (WinState.handle env) s =
      (if env.ok 3 then .ok () else .error .osError, s.count) := by
    rw [← h]
    exact run_call rfl
  by_cases h3 : env.ok 3 = true
  · obtain ⟨r, t, hrun, hsame, hpolicy⟩ := exists_run_setBack env old s.count
    rw [show s.count.calls = 4 from congrArg (· + 1) h] at hpolicy
    rw [if_pos h3] at hsend
    refine ⟨r.map fun _ ↦ (), t, ?_, ⟨hsame.locked, hsame.pipe, hsame.attempts⟩, ?_⟩
    · rw [run_bind_ok hsend, run_bind, hrun]
      cases r <;> rfl
    · simp only [h3, true_and]
      exact hpolicy
  · rw [if_neg h3] at hsend
    exact ⟨_, _, run_bind_error hsend, ⟨rfl, rfl, rfl⟩, .inr ⟨rfl, fun h ↦ h3 h.2.1⟩⟩

/-- If the policy is set to 3, it is 3 before, or 3 afterwards, or set back. -/
theorem restores_cases (hsets : env.Sets) (policy : Option RegValue) :
    env.SetsBack policy ∧ env.Restores policy ∨ ¬ env.SetsBack policy ∧
      (env.Restores policy ∧ some (.dword 3) = policy ∨
        ¬ env.Restores policy ∧ some (.dword 3) = some (RegValue.dword 3)) := by
  by_cases hback : env.SetsBack policy
  · exact .inl ⟨hback, fun _ ↦ .inr hback⟩
  · by_cases h3 : policy = some (.dword 3)
    · exact .inr ⟨hback, .inl ⟨fun _ ↦ .inl h3, h3.symm⟩⟩
    · exact .inr ⟨hback, .inr ⟨fun h ↦ (h hsets).elim h3 hback, rfl⟩⟩

/-- **What simulating a secure attention sequence does to the policy.** -/
theorem exists_run_performSAS (env : WinEnv) (h : s.calls = 0) :
    ∃ r t, performSAS.run (WinState.handle env) s = (r, t) ∧ SameButPolicy s t ∧
      (env.Restores s.policy ∧ t.policy = s.policy ∨
        ¬ env.Restores s.policy ∧ t.policy = some (.dword 3)) := by
  have hsas : findSas.run (WinState.handle env) s = (.ok env.sas, s) := rfl
  rw [performSAS, run_bind_ok hsas]
  by_cases hs : env.sas = true
  · set s₁ : WinState := { s with log := s.log ++ [.simulating] }
    have hlog : (log .simulating).run (WinState.handle env) s = (.ok (), s₁) := rfl
    have hset := run_setSoftwareSASPolicy env s₁ (.dword 3)
    rw [show s₁.calls = 0 from h] at hset
    rw [if_pos hs, run_bind_ok hlog]
    by_cases h0 : env.ok 0 = true
    · by_cases h2 : env.ok 2 = true
      · have hsets : env.Sets := ⟨hs, h0, h2⟩
        rw [if_pos h0, if_pos h2] at hset
        have hcalls : ((s₁.after 3).set (.dword 3)).2.calls = 3 := congrArg (· + 3) h
        have hsame : SameButPolicy s ((s₁.after 3).set (.dword 3)).2 := ⟨rfl, rfl, rfl⟩
        obtain ⟨r, t, hrun, hsame', hpolicy⟩ := exists_run_sendSAS env
          (if env.ok (0 + 1) = true then s₁.policy else none) hcalls
        refine ⟨r, t, by rw [run_bind_ok hset, hrun], hsame.trans hsame', ?_⟩
        rcases restores_cases hsets s.policy with ⟨hback, hrestores⟩ | ⟨hback, hstays⟩
        · obtain ⟨⟨n, hn⟩, h1, hrest⟩ := hback
          rw [if_pos h1, show s₁.policy = some (.dword n) from hn] at hpolicy
          rcases hpolicy with ⟨⟨m, hm, ht⟩, -⟩ | ⟨-, hnot⟩
          · exact .inl ⟨hrestores, by rw [ht, hn, hm]⟩
          · exact absurd ⟨⟨n, rfl⟩, hrest⟩ hnot
        · rcases hpolicy with ⟨⟨m, hm, -⟩, hrest⟩ | ⟨ht, -⟩
          · obtain ⟨h1, hm⟩ := Option.ite_none_right_eq_some.mp hm
            exact absurd ⟨⟨m, hm⟩, h1, hrest⟩ hback
          · rw [ht]
            exact hstays
      · rw [if_pos h0, if_neg h2] at hset
        exact ⟨_, _, run_bind_error hset, ⟨rfl, rfl, rfl⟩, .inl ⟨fun h ↦ absurd h.2.2 h2, rfl⟩⟩
    · rw [if_neg h0] at hset
      exact ⟨_, _, run_bind_error hset, ⟨rfl, rfl, rfl⟩, .inl ⟨fun h ↦ absurd h.2.1 h0, rfl⟩⟩
  · rw [if_neg hs]
    exact ⟨_, s, rfl, ⟨rfl, rfl, rfl⟩, .inl ⟨fun h ↦ absurd h.1 hs, rfl⟩⟩

end Policy

/-! ## A login -/

section Login

variable {env : WinEnv} {s : WinState} {credentials : Bytes}

/-- Attempt `j` is made, after the attempts from number `k` on: none of them has succeeded. -/
def WinEnv.Makes (env : WinEnv) (k j : ℕ) : Prop :=
  ∀ i < j, k ≤ i → env.attempt i ≠ .replied

instance (env : WinEnv) (k j : ℕ) : Decidable (env.Makes k j) := Nat.decidableBallLT _ _

/-- How often a message arrives in so many attempts from number `k` on. -/
def WinEnv.arrivalsFrom (env : WinEnv) (k left : ℕ) : ℕ :=
  (List.range' k left).countP fun j ↦ env.Makes k j ∧ env.attempt j ≠ .failed

/-- How often the credentials of a login arrive. -/
def WinEnv.arrivals (env : WinEnv) : ℕ := env.arrivalsFrom 0 maxRetries

theorem makes_self (env : WinEnv) (k : ℕ) : env.Makes k k := fun _ hi hki ↦ absurd hki (by omega)

/-- After an attempt that has not succeeded, the others are made as if it had not been. -/
theorem makes_iff_of_ne {k j : ℕ} (h : env.attempt k ≠ .replied) :
    env.Makes k j ↔ env.Makes (k + 1) j := by
  constructor
  · exact fun hmakes i hi hki ↦ hmakes i hi (by omega)
  · intro hmakes i hi hki
    rcases Nat.eq_or_lt_of_le hki with rfl | hlt
    · exact h
    · exact hmakes i hi hlt

/-- After one that has succeeded, there is no other. -/
theorem arrivalsFrom_of_replied {k : ℕ} (h : env.attempt k = .replied) (left : ℕ) :
    env.arrivalsFrom k (left + 1) = 1 := by
  have hnone : (List.range' (k + 1) left).countP
      (fun j ↦ env.Makes k j ∧ env.attempt j ≠ .failed) = 0 := by
    refine List.countP_eq_zero.mpr fun j hj hmakes ↦ ?_
    have hlt := (List.mem_range'_1.mp hj).1
    exact (of_decide_eq_true hmakes).1 k (by omega) le_rfl h
  rw [WinEnv.arrivalsFrom, List.range'_succ, List.countP_cons, hnone]
  simp [makes_self, h]

theorem arrivalsFrom_of_ne {k : ℕ} (h : env.attempt k ≠ .replied) (left : ℕ) :
    env.arrivalsFrom k (left + 1) =
      (if env.attempt k = .failed then 0 else 1) + env.arrivalsFrom (k + 1) left := by
  have hmakes : env.Makes (k + 1) k := (makes_iff_of_ne h).mp (makes_self env k)
  rw [WinEnv.arrivalsFrom, List.range'_succ, List.countP_cons, WinEnv.arrivalsFrom, Nat.add_comm]
  simp only [makes_iff_of_ne h]
  by_cases hfailed : env.attempt k = .failed <;> simp [hfailed, hmakes]

/-- What arrives is written as often as an attempt was made that did not fail before. -/
theorem exists_run_writeCredentials (env : WinEnv) (credentials : Bytes) (left : ℕ)
    (s : WinState) :
    ∃ t, (writeCredentials credentials left).run (WinState.handle env) s = (.ok (), t) ∧
      t.locked = s.locked ∧ t.policy = s.policy ∧ t.attempts ≤ s.attempts + left ∧
        t.pipe = s.pipe ++ List.replicate (env.arrivalsFrom s.attempts left) credentials := by
  induction left generalizing s with
  | zero => exact ⟨s, rfl, rfl, rfl, le_rfl, (List.append_nil _).symm⟩
  | succ left ih =>
    have hsleep : sleep.run (WinState.handle env) s = (.ok (), s) := rfl
    rw [writeCredentials, run_bind, run_tryExcept, run_bind_ok hsleep]
    by_cases hattempt : env.attempt s.attempts = .replied
    · -- it is written, and there are no more attempts
      have hcall : (callNamedPipe credentials).run (WinState.handle env) s = (.ok (), { s with
          attempts := s.attempts + 1, pipe := s.pipe ++ [credentials] }) := by
        refine run_call ?_
        rw [run_perform]
        simp only [WinState.handle, hattempt]
      rw [run_bind_ok hcall]
      refine ⟨_, rfl, rfl, rfl, ?_, ?_⟩
      · show s.attempts + 1 ≤ s.attempts + (left + 1)
        omega
      · rw [arrivalsFrom_of_replied hattempt]
        rfl
    · set written := List.replicate (if env.attempt s.attempts = .failed then 0 else 1) credentials
      have hcall : (callNamedPipe credentials).run (WinState.handle env) s =
          (.error .osError, { s with
            attempts := s.attempts + 1, pipe := s.pipe ++ written }) := by
        refine run_call ?_
        rw [run_perform]
        simp only [WinState.handle, written]
        cases h : env.attempt s.attempts with
        | replied => exact absurd h hattempt
        | unanswered => rfl
        | failed => simp
      rw [run_bind_error hcall]
      set record : LoginLog :=
        .errorWriting (maxRetries - left) maxRetries (env.error (s.attempts + 1))
      obtain ⟨t, hrun, hlocked, hpolicy, hattempts, hpipe⟩ :=
        ih { s with
          attempts := s.attempts + 1
          pipe := s.pipe ++ written
          log := s.log ++ [record] }
      refine ⟨t, hrun, hlocked, hpolicy, ?_, ?_⟩
      · dsimp only at hattempts
        omega
      · rw [hpipe, arrivalsFrom_of_ne hattempt, List.replicate_add, ← List.append_assoc]

/-- Credentials arrive at most three times. -/
theorem arrivals_le (env : WinEnv) : env.arrivals ≤ maxRetries :=
  List.countP_le_length.trans List.length_range'.le

/-- Where every message that is written is replied to, they arrive once, if an attempt succeeds. -/
theorem arrivals_of_heard (h : ∀ k, env.attempt k ≠ .unanswered) :
    (∃ k < maxRetries, env.attempt k = .replied) ∧ env.arrivals = 1 ∨
      (∀ k < maxRetries, env.attempt k = .failed) ∧ env.arrivals = 0 := by
  have hfrom (k left : ℕ) : (∃ j < k + left, env.attempt j = .replied) ∧
      env.arrivalsFrom k left = 1 ∨ (∀ j < k + left, k ≤ j → env.attempt j = .failed) ∧
        env.arrivalsFrom k left = 0 := by
    induction left generalizing k with
    | zero => exact .inr ⟨fun j hj hkj ↦ by omega, rfl⟩
    | succ left ih =>
      by_cases hattempt : env.attempt k = .replied
      · exact .inl ⟨⟨k, by omega, hattempt⟩, arrivalsFrom_of_replied hattempt left⟩
      · have hfailed : env.attempt k = .failed := by
          cases hk : env.attempt k with
          | replied => exact absurd hk hattempt
          | unanswered => exact absurd hk (h k)
          | failed => rfl
        rw [arrivalsFrom_of_ne hattempt, if_pos hfailed, Nat.zero_add]
        rcases ih (k + 1) with ⟨⟨j, hj, hreplied⟩, hone⟩ | ⟨hall, hzero⟩
        · exact .inl ⟨⟨j, by omega, hreplied⟩, hone⟩
        · refine .inr ⟨fun j hj hkj ↦ ?_, hzero⟩
          rcases Nat.eq_or_lt_of_le hkj with rfl | hlt
          · exact hfailed
          · exact hall j (by omega) hlt
  rcases hfrom 0 maxRetries with ⟨⟨k, hk, hreplied⟩, hone⟩ | ⟨hall, hzero⟩
  · exact .inl ⟨⟨k, by omega, hreplied⟩, hone⟩
  · exact .inr ⟨fun k hk ↦ hall k (by omega) (Nat.zero_le k), hzero⟩

/-- **A login**: no exception leaves it, and it does nothing on a desktop that is not locked. -/
theorem exists_run_login (env : WinEnv) (credentials : Bytes) (s : WinState) :
    ∃ t, (login credentials).run (WinState.handle env) { s with calls := 0, attempts := 0 } =
        (.ok (), t) ∧ t.locked = s.locked ∧ t.attempts ≤ maxRetries ∧
      t.pipe = s.pipe ++ List.replicate (if s.locked then env.arrivals else 0) credentials ∧
      ((s.locked = true → env.Restores s.policy) ∧ t.policy = s.policy ∨
        ¬ (s.locked = true → env.Restores s.policy) ∧ t.policy = some (.dword 3)) := by
  set s₀ : WinState := { s with calls := 0, attempts := 0 }
  have hdesktop : desktopLocked.run (WinState.handle env) s₀ = (.ok s.locked, s₀) := rfl
  rw [login, run_bind_ok hdesktop]
  by_cases hlocked : s.locked = true
  · obtain ⟨r, t₁, hrun₁, hsame, hpolicy⟩ := exists_run_performSAS (s := s₀) env rfl
    have htry : ∃ u, (performSAS.tryExcept fun _ ↦ log .failedSAS).run (WinState.handle env) s₀ =
        (.ok (), u) ∧ SameButPolicy t₁ u ∧ u.policy = t₁.policy := by
      rw [run_tryExcept, hrun₁]
      cases r with
      | ok _ => exact ⟨t₁, rfl, ⟨rfl, rfl, rfl⟩, rfl⟩
      | error _ => exact ⟨_, rfl, ⟨rfl, rfl, rfl⟩, rfl⟩
    obtain ⟨u, hrun₂, hsame₂, hpolicy₂⟩ := htry
    have hsame' := hsame.trans hsame₂
    obtain ⟨t, hrun₃, hlocked₃, hpolicy₃, hattempts₃, hpipe₃⟩ :=
      exists_run_writeCredentials env credentials maxRetries u
    have hzero : u.attempts = 0 := hsame'.attempts
    rw [hzero] at hattempts₃ hpipe₃
    rw [hlocked]
    refine ⟨t, ?_, ?_, by omega, ?_, ?_⟩
    · rw [if_neg (by simp), run_bind_ok hrun₂, hrun₃]
    · rw [hlocked₃, hsame'.locked]
      exact hlocked
    · rw [hpipe₃, hsame'.pipe, if_pos rfl]
      rfl
    · rw [hpolicy₃, hpolicy₂]
      simpa only [true_implies] using hpolicy
  · rw [Bool.eq_false_iff.mpr hlocked]
    exact ⟨_, rfl, Bool.eq_false_iff.mpr hlocked, Nat.zero_le _, (List.append_nil _).symm,
      .inl ⟨by simp, rfl⟩⟩

end Login

/-! ## Runs -/

section Run

variable {s : WinState}

theorem step_policy (s : WinState) (e : WinStep) :
    Restores s e ∧ (step s e).policy = s.policy ∨
      ¬ Restores s e ∧ (step s e).policy = some (.dword 3) := by
  cases e with
  | session locked => exact .inl ⟨trivial, rfl⟩
  | login env credentials =>
    obtain ⟨t, hrun, -, -, -, hpolicy⟩ := exists_run_login env credentials s
    rw [step, hrun]
    exact hpolicy

/-- Once the policy is 3, it stays so. -/
theorem policy_foldl (h : s.policy = some (.dword 3)) (run : List WinStep) :
    (run.foldl step s).policy = some (.dword 3) := by
  induction run generalizing s with
  | nil => exact h
  | cons e run ih =>
    refine ih ?_
    rcases step_policy s e with ⟨-, hpolicy⟩ | ⟨-, hpolicy⟩
    · rw [hpolicy, h]
    · exact hpolicy

/-- **When the registry is as it was**, after any run of logins and session events. -/
theorem policy_run_iff (s : WinState) (run : List WinStep) :
    (run.foldl step s).policy = s.policy ↔ Each step Restores s run := by
  induction run generalizing s with
  | nil => exact iff_of_true rfl trivial
  | cons e run ih =>
    rw [List.foldl_cons, Each]
    rcases step_policy s e with ⟨hrestores, hpolicy⟩ | ⟨hnot, hpolicy⟩
    · rw [and_iff_right hrestores, ← ih, hpolicy]
    · refine iff_of_false (fun h ↦ hnot ?_) fun h ↦ hnot h.1
      -- the policy is 3 from now on, so it was 3 before
      rw [policy_foldl hpolicy] at h
      cases e with
      | session locked => trivial
      | login env credentials => exact fun _ _ ↦ .inl h.symm

/-- What arrives of the logins of a run, on a desktop that is locked at first or not. -/
def arriving : Bool → List WinStep → List Bytes
  | _, [] => []
  | locked, .login env credentials :: run =>
    List.replicate (if locked then env.arrivals else 0) credentials ++ arriving locked run
  | _, .session locked :: run => arriving locked run

/-- **Which credentials arrive**, after any run of logins and session events, and how often. -/
theorem pipe_run (s : WinState) (run : List WinStep) :
    (run.foldl step s).pipe = s.pipe ++ arriving s.locked run := by
  induction run generalizing s with
  | nil => exact (List.append_nil _).symm
  | cons e run ih =>
    rw [List.foldl_cons, ih]
    cases e with
    | session locked => rfl
    | login env credentials =>
      obtain ⟨t, hrun, hlocked, -, hpipe, -⟩ := exists_run_login env credentials s
      rw [step, hrun, arriving]
      dsimp only
      rw [hpipe, hlocked, List.append_assoc]

end Run

end GuestAgent.CommandHandlerWin
