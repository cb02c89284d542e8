import GuestAgent.Library.Effect
import GuestAgent.Library.Transition
import GuestAgent.Python.Object
import GuestAgent.Python.Numeral

/-!
# The server that hands out credentials

On Linux a login command ends up in `CredServer.user_authenticated`.  It makes a channel, a thread
that waits on a local socket, announces a token over D-Bus, and joins the thread; whoever connects
to the socket and shows the token gets the credentials.

Only one login is in progress at a time.  The field `_cred_channel` says so: it is set before the
thread is started and cleared after it is joined, and a login that finds it set is ignored.  Between
the two there are four steps that can raise, and none of them is guarded, so that an exception
leaves the field set with no login in progress.  `always_free_iff` says that this is what it takes:
the field is clear between logins as long as none of the four steps has raised.

`user_authenticated` is a program over `ServerAct`.  Here it runs on its own, one login after the
other; `GuestAgent.Credentials.World` runs it next to the threads it starts.
-/

set_option autoImplicit false

namespace GuestAgent

open Effect Effect.Prog Transition

/-! ## The program -/

/-- A user who may connect, by number or by name. -/
inductive User where
  | uid (n : Int)
  | name (s : Bytes)
  deriving DecidableEq, Repr

/-- What the server writes to the log. -/
inductive ServerLog where
  /-- `Token: %s` -/
  | token (token : Bytes)
  /-- `Opening credentials channel...` -/
  | opening
  /-- `Credentials channel was closed.` -/
  | closed
  /-- `Ignored authentication while another one is in progress.` -/
  | ignored
  /-- The name of a user `getpwnam` does not know. -/
  | unknownUser (name : Bytes)
  /-- `The following users are allowed to connect: %s` -/
  | allowedUsers
  deriving DecidableEq, Repr

/-- The operations of the server.  Channels are numbered. -/
inductive ServerAct where
  /-- Read `self._cred_channel`. -/
  | readSlot
  /-- Set `self._cred_channel`. -/
  | writeSlot (c : Option ℕ)
  /-- `CredChannel()`. -/
  | newChannel
  /-- `self._allowed.append(uid)` of a channel. -/
  | appendAllowed (c : ℕ) (uid : Int)
  /-- `pwd.getpwnam(name)[2]`. -/
  | getpwnam (name : Bytes)
  /-- `random.randint(a, b)`. -/
  | randint (a b : ℕ)
  /-- Set `self._credentials` of a channel. -/
  | writeCredentials (c : ℕ) (credentials : Bytes × Bytes)
  /-- `threading.Thread.start` of a channel. -/
  | startThread (c : ℕ)
  /-- Has `self._dbus` been set? -/
  | hasDbus
  /-- `self._dbus.UserAuthenticated(token)`. -/
  | userAuthenticated (token : Bytes)
  /-- `join` of a channel. -/
  | join (c : ℕ)
  | log (record : ServerLog)

/-- What an operation answers. -/
@[reducible] def ServerAct.Resp : ServerAct → Type
  | readSlot => Option ℕ
  | newChannel | randint _ _ => ℕ
  | getpwnam _ => Option Int
  | hasDbus => Bool
  | startThread _ | userAuthenticated _ | join _ => Except PyExn Unit
  | writeSlot _ | appendAllowed _ _ | writeCredentials _ _ | log _ => Unit

/-- A piece of the server. -/
abbrev ServerM := Prog ServerAct.Resp PyExn

namespace ServerM

def readSlot : ServerM (Option ℕ) := perform ServerAct.readSlot

def writeSlot (c : Option ℕ) : ServerM Unit := perform (ServerAct.writeSlot c)

def newChannel : ServerM ℕ := perform ServerAct.newChannel

def appendAllowed (c : ℕ) (uid : Int) : ServerM Unit := perform (ServerAct.appendAllowed c uid)

def getpwnam (name : Bytes) : ServerM (Option Int) := perform (ServerAct.getpwnam name)

def randint (a b : ℕ) : ServerM ℕ := perform (ServerAct.randint a b)

def writeCredentials (c : ℕ) (credentials : Bytes × Bytes) : ServerM Unit :=
  perform (ServerAct.writeCredentials c credentials)

def startThread (c : ℕ) : ServerM Unit := do
  let r : Except PyExn Unit ← perform (ServerAct.startThread c)
  ofExcept r

def hasDbus : ServerM Bool := perform ServerAct.hasDbus

def userAuthenticated (token : Bytes) : ServerM Unit := do
  let r : Except PyExn Unit ← perform (ServerAct.userAuthenticated token)
  ofExcept r

def join (c : ℕ) : ServerM Unit := do
  let r : Except PyExn Unit ← perform (ServerAct.join c)
  ofExcept r

def log (record : ServerLog) : ServerM Unit := perform (ServerAct.log record)

/-- `self._cred_channel`, where one of its methods is about to be called. -/
def credChannel : ServerM ℕ := do
  match ← readSlot with
  | some c => pure c
  | none => raise .attributeError

/-- One round of the loop of `set_allowed`. -/
def allowUser (c : ℕ) : User → ServerM Unit
  | .uid n => appendAllowed c n
  | .name s => do
    match ← getpwnam s with
    | some n => appendAllowed c n
    | none => log (.unknownUser s)

/-- The loop of `set_allowed`. -/
def allowUsers (c : ℕ) : List User → ServerM Unit
  | [] => pure ()
  | user :: users => do
    allowUser c user
    allowUsers c users

/-- `CredChannel.set_allowed`. -/
def setAllowed (c : ℕ) (users : List User) : ServerM Unit := do
  allowUsers c users
  log .allowedUsers

/-- `CredChannel.start`. -/
def start (c : ℕ) (credentials : Bytes × Bytes) : ServerM Unit := do
  writeCredentials c credentials
  startThread c

/-- `self._dbus.UserAuthenticated(token)`: before `CredServer.run` has set it there is no attribute
`_dbus`. -/
def emitSignal (token : Bytes) : ServerM Unit := do
  if ← hasDbus then userAuthenticated token
  else raise .attributeError

end ServerM

open ServerM in
/-- `user_authenticated` from where the channel is ready to be started. -/
def runChannel (token credentials : Bytes) : ServerM Unit := do
  log .opening
  start (← credChannel) (token, credentials)
  emitSignal token
  join (← credChannel)
  log .closed
  writeSlot none

open ServerM in
/-- `CredServer.user_authenticated`. -/
def userAuthenticated (credentials : Bytes) : ServerM Unit := do
  match ← readSlot with
  | none => do
    let c ← newChannel
    writeSlot (some c)
    setAllowed (← credChannel) [.uid 0]
    let n ← randint 100000 999999
    log (.token (strNat n))
    runChannel (strNat n) credentials
  | some _ => log .ignored

/-! ## One login after the other -/

/-- What the steps of a login that can raise do, and the number `randint` draws. -/
structure LoginEnv where
  number : ℕ
  startThread : Except PyExn Unit
  hasDbus : Bool
  userAuthenticated : Except PyExn Unit
  join : Except PyExn Unit

/-- The server between two logins. -/
structure ServerState where
  /-- `_cred_channel`. -/
  slot : Option ℕ
  /-- The number of channels made so far. -/
  channels : ℕ
  records : List ServerLog
  deriving DecidableEq

/-- The server after `__init__`. -/
def ServerState.init : ServerState := ⟨none, 0, []⟩

/-- Answer one operation. -/
def ServerState.handle (env : LoginEnv) : (a : ServerAct) → ServerState → a.Resp × ServerState
  | .readSlot, s => (s.slot, s)
  | .writeSlot c, s => ((), { s with slot := c })
  | .newChannel, s => (s.channels, { s with channels := s.channels + 1 })
  | .appendAllowed _ _, s => ((), s)
  | .getpwnam _, s => (none, s)
  | .randint _ _, s => (env.number, s)
  | .writeCredentials _ _, s => ((), s)
  | .startThread _, s => (env.startThread, s)
  | .hasDbus, s => (env.hasDbus, s)
  | .userAuthenticated _, s => (env.userAuthenticated, s)
  | .join _, s => (env.join, s)
  | .log record, s => ((), { s with records := s.records ++ [record] })

/-- One login, run to its end: what it raises is caught by the thread that listens for commands. -/
def ServerState.step (s : ServerState) (login : Bytes × LoginEnv) : ServerState :=
  ((userAuthenticated login.1).run (ServerState.handle login.2) s).2

/-- No login is in progress, and none was ignored. -/
structure ServerState.Free (s : ServerState) : Prop where
  slot : s.slot = none
  records : .ignored ∉ s.records

/-- No step of the login raises. -/
structure LoginEnv.Smooth (env : LoginEnv) : Prop where
  startThread : env.startThread = .ok ()
  hasDbus : env.hasDbus = true
  userAuthenticated : env.userAuthenticated = .ok ()
  join : env.join = .ok ()

section Steps

open ServerM

variable (env : LoginEnv) (s : ServerState)

theorem run_credChannel {c : ℕ} (h : s.slot = some c) :
    credChannel.run (ServerState.handle env) s = (.ok c, s) := by
  have hrun : credChannel.run (ServerState.handle env) s = Prog.run (ServerState.handle env)
      (match s.slot with
        | some c => pure c
        | none => raise .attributeError) s := rfl
  rw [hrun, h]
  rfl

theorem run_start (c : ℕ) (credentials : Bytes × Bytes) :
    (start c credentials).run (ServerState.handle env) s = (env.startThread, s) :=
  run_ofExcept _ _

theorem run_emitSignal (token : Bytes) :
    (emitSignal token).run (ServerState.handle env) s =
      (if env.hasDbus then env.userAuthenticated else .error .attributeError, s) := by
  have hrun : (emitSignal token).run (ServerState.handle env) s = Prog.run (ServerState.handle env)
      (if env.hasDbus = true then ServerM.userAuthenticated token
        else raise .attributeError) s := rfl
  rw [hrun]
  split
  · exact run_ofExcept _ _
  · rfl

theorem run_join (c : ℕ) : (join c).run (ServerState.handle env) s = (env.join, s) :=
  run_ofExcept _ _

end Steps

theorem run_runChannel (env : LoginEnv) {s : ServerState} {c : ℕ} (h : s.slot = some c)
    (token credentials : Bytes) :
    ∃ out t, (runChannel token credentials).run (ServerState.handle env) s = (out, t) ∧
      (∃ rs, .ignored ∉ rs ∧ t.records = s.records ++ rs) ∧ (t.slot = none ↔ env.Smooth) := by
  set t : ServerState := { s with records := s.records ++ [.opening] } with ht
  have hchannel := run_credChannel env t (c := c) h
  have hopen : ∃ rs, .ignored ∉ rs ∧ t.records = s.records ++ rs := ⟨[.opening], by decide, rfl⟩
  have hstuck : t.slot ≠ none := by rw [ht, h]; exact Option.some_ne_none c
  rw [runChannel]
  have hlog : (ServerM.log .opening).run (ServerState.handle env) s = (.ok (), t) := rfl
  rw [run_bind_ok hlog, run_bind_ok hchannel]
  rcases hstart : env.startThread with e | _
  · rw [run_bind_error ((run_start ..).trans (by rw [hstart]))]
    exact ⟨_, t, rfl, hopen, iff_of_false hstuck fun hs ↦ by cases hstart.symm.trans hs.startThread⟩
  · rw [run_bind_ok ((run_start ..).trans (by rw [hstart]))]
    rcases hsignal : if env.hasDbus then env.userAuthenticated
      else .error .attributeError with e | _
    · rw [run_bind_error ((run_emitSignal ..).trans (by rw [hsignal]))]
      refine ⟨_, t, rfl, hopen, iff_of_false hstuck fun hs ↦ ?_⟩
      rw [hs.hasDbus, if_pos rfl, hs.userAuthenticated] at hsignal
      cases hsignal
    · rw [run_bind_ok ((run_emitSignal ..).trans (by rw [hsignal])), run_bind_ok hchannel]
      rcases hjoin : env.join with e | _
      · rw [run_bind_error ((run_join ..).trans (by rw [hjoin]))]
        exact ⟨_, t, rfl, hopen, iff_of_false hstuck fun hs ↦ by cases hjoin.symm.trans hs.join⟩
      · rw [run_bind_ok ((run_join ..).trans (by rw [hjoin]))]
        have hsmooth : env.Smooth := by
          by_cases hdbus : env.hasDbus = true
          · rw [if_pos hdbus] at hsignal
            exact ⟨hstart, hdbus, hsignal, hjoin⟩
          · rw [if_neg hdbus] at hsignal
            cases hsignal
        exact ⟨_, _, rfl, ⟨[.opening, .closed], by decide, by simp [ht, ServerState.handle]⟩,
          iff_of_true rfl hsmooth⟩

/-- A login that finds the slot clear leaves it clear where no step raises, and only there. -/
theorem step_of_slot_none {s : ServerState} (h : s.slot = none) (login : Bytes × LoginEnv) :
    (∃ rs, .ignored ∉ rs ∧ (s.step login).records = s.records ++ rs) ∧
      ((s.step login).slot = none ↔ login.2.Smooth) := by
  obtain ⟨credentials, env⟩ := login
  obtain ⟨slot, channels, records⟩ := s
  subst h
  obtain ⟨out, t, hrun, ⟨rs, hrs, hrec⟩, hslot⟩ := run_runChannel env (c := channels)
    (s := ⟨some channels, channels + 1,
      records ++ [.allowedUsers] ++ [.token (strNat env.number)]⟩)
    rfl (strNat env.number) credentials
  have hstep : ServerState.step ⟨none, channels, records⟩ (credentials, env) = t :=
    congrArg Prod.snd hrun
  rw [hstep]
  refine ⟨⟨.allowedUsers :: .token (strNat env.number) :: rs, ?_, by simp [hrec]⟩, hslot⟩
  simpa using hrs

theorem step_free_iff (s : ServerState) (login : Bytes × LoginEnv) (h : s.Free) :
    (s.step login).Free ↔ login.2.Smooth := by
  obtain ⟨⟨rs, hrs, hrec⟩, hslot⟩ := step_of_slot_none h.slot login
  constructor
  · exact fun h' ↦ hslot.mp h'.slot
  · intro hs
    refine ⟨hslot.mpr hs, ?_⟩
    rw [hrec, List.mem_append]
    exact fun hmem ↦ hmem.elim h.records hrs

theorem free_init : ServerState.init.Free := ⟨rfl, by decide⟩

/-- **Logins are served as long as no step of one raises.** -/
theorem always_free_iff (run : List (Bytes × LoginEnv)) :
    Always ServerState.step ServerState.Free .init run ↔ ∀ login ∈ run, login.2.Smooth := by
  rw [always_iff_each step_free_iff free_init]
  exact each_iff_forall_mem

/-- A login before `CredServer.run` has set `_dbus`, and one after. -/
def earlyLogins : List (Bytes × LoginEnv) :=
  [(ascii "first", ⟨123456, .ok (), false, .ok (), .ok ()⟩),
   (ascii "second", ⟨654321, .ok (), true, .ok (), .ok ()⟩)]

/-- The second login is ignored, though the first one has ended. -/
theorem not_always_free : ¬ Always ServerState.step ServerState.Free .init earlyLogins := by
  rintro ⟨-, -, h⟩
  exact absurd h.records (by decide)

end GuestAgent
