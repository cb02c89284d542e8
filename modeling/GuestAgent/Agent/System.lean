import GuestAgent.Agent.Logic

/-!
# Running the agent

`handle` answers the operations of the logic: the fields of the agent are a state, and everything
outside it, `Env`, may answer anything and may raise wherever the operation can.  `System.step`
runs one operation of the agent to its end, whether it returns or raises: a host command, a step of
the worker, or a session event.  A run of the agent is a list of such operations, each with the
environment it met.

A message handed to `vio.write` is recorded together with the version in force at that moment, so
that what the gate in `send` let through can be read off a state afterwards.
-/

set_option autoImplicit false

namespace GuestAgent

open Effect Effect.Prog AgentM

/-! ## State and environment -/

/-- A message handed to `vio.write`, with the version in force at that moment. -/
structure Sent where
  name : MessageName
  args : Dict
  apiVersion : Int

/-- The fields of the agent and its data retriever, and what it has done so far. -/
structure AgentState where
  apiVersion : Int
  activeUser : PyStr
  desktopLocked : Bool
  /-- The messages handed to `vio.write`. -/
  written : List Sent
  /-- The records written to the log. -/
  records : List LogRecord
  /-- The calls made on the command handler. -/
  handled : List HandlerCall
  /-- The hooks started. -/
  executed : List HookPath
  /-- How many calls of the data retriever and the channel the current operation has made. -/
  calls : ℕ

/-- How everything outside the agent behaves during one operation.  The `n`-th call on the data
retriever or the channel gets the answer with index `n`. -/
structure Env where
  dr : ℕ → (q : Query) → Except PyExn q.Ans
  vioWrite : ℕ → MessageName → Dict → Except PyExn Unit
  commandHandler : HandlerCall → Except PyExn Unit
  listdir : HookEvent → Option (List Bytes)
  popen : HookPath → HookOutcome
  waitStopIsSet : Bool

/-- An environment in which every call returns and there is nothing to report. -/
def Env.idle : Env where
  dr _ q := .ok <| match q with
    | .getActiveUser => key "None"
    | .getTimezoneInfo => (.none, .none)
    | .getOsInfo => none
    | .getAvailableRAM | .getMemoryStats | .getApplications | .getContainerList | .getMachineName
    | .getOsVersion | .getAllNetworkInterfaces | .getFQDN | .getDisksUsage | .getDiskMapping
    | .getNumberOfCPUs => PyObj.none
  vioWrite _ _ _ := .ok ()
  commandHandler _ := .ok ()
  listdir _ := some []
  popen _ := .exited 0 [] []
  waitStopIsSet := false

/-- Answer one operation.  A method the command handler of the platform does not define raises
`AttributeError`. -/
def handle (p : Platform) (env : Env) : (a : Act) → AgentState → a.Resp × AgentState
  | .readApiVersion, s => (s.apiVersion, s)
  | .writeApiVersion version, s => ((), { s with apiVersion := version })
  | .readActiveUser, s => (s.activeUser, s)
  | .writeActiveUser user, s => ((), { s with activeUser := user })
  | .writeDesktopLocked locked, s => ((), { s with desktopLocked := locked })
  | .dr q, s => (env.dr s.calls q, { s with calls := s.calls + 1 })
  | .vioWrite name args, s =>
    (env.vioWrite s.calls name args,
      { s with calls := s.calls + 1, written := s.written ++ [⟨name, args, s.apiVersion⟩] })
  | .commandHandler c, s =>
    if c.method ∈ p.commandHandler then
      (env.commandHandler c, { s with handled := s.handled ++ [c] })
    else (.error .attributeError, s)
  | .listdir event, s => (env.listdir event, s)
  | .popen path, s => (env.popen path, { s with executed := s.executed ++ [path] })
  | .waitStopIsSet, s => (env.waitStopIsSet, s)
  | .log record, s => ((), { s with records := s.records ++ [record] })

/-- The operations that run to their end one at a time. -/
inductive Op where
  /-- A command of the host. -/
  | command (name : PyObj) (args : Dict)
  /-- The next step of the worker. -/
  | work
  | sessionLogon | sessionLogoff | sessionLock | sessionUnlock

/-- The agent and the state of its worker. -/
structure System where
  agent : AgentState
  worker : Worker

/-- The agent after `__init__`. -/
def System.init : System where
  agent :=
    { apiVersion := disabledApiValue, activeUser := key "", desktopLocked := true, written := [],
      records := [], handled := [], executed := [], calls := 0 }
  worker := .starting

/-- What an operation runs, with the state of the worker after it. -/
def Op.program (config : Config) (w : Worker) : Op → AgentM Worker
  | command name args => do
    parseCommand name args
    pure w
  | work => workerStep config w
  | sessionLogon => do
    GuestAgent.sessionLogon
    pure w
  | sessionLogoff => do
    GuestAgent.sessionLogoff
    pure w
  | sessionLock => do
    GuestAgent.sessionLock
    pure w
  | sessionUnlock => do
    GuestAgent.sessionUnlock
    pure w

/-- The worker after an operation that raised: the exception ends the worker's own thread, and
every other thread catches it. -/
def Op.workerAfterRaise (w : Worker) : Op → Worker
  | work => .finished
  | _ => w

/-- One operation of the agent, run to its end. -/
def System.step (p : Platform) (config : Config) (sys : System) (o : Op × Env) : System :=
  match (o.1.program config sys.worker).run (handle p o.2) { sys.agent with calls := 0 } with
  | (.ok w, s) => ⟨s, w⟩
  | (.error _, s) => ⟨s, o.1.workerAfterRaise sys.worker⟩

/-- A run of the agent. -/
def System.exec (p : Platform) (config : Config) (sys : System) (run : List (Op × Env)) :
    System :=
  run.foldl (System.step p config) sys

@[simp] theorem System.exec_nil (p : Platform) (config : Config) (sys : System) :
    sys.exec p config [] = sys := rfl

/-- The agent after a command is the one `parseCommand` leaves. -/
theorem step_command (p : Platform) (config : Config) (sys : System) (env : Env) (name : PyObj)
    (args : Dict) :
    (System.step p config sys (.command name args, env)).agent =
      ((parseCommand name args).run (handle p env) { sys.agent with calls := 0 }).2 := by
  rw [System.step, Op.program, run_bind]
  rcases (parseCommand name args).run (handle p env) { sys.agent with calls := 0 }
    with ⟨_ | _, t⟩ <;> rfl

/-! ## What the basic operations do -/

section Runs

variable (p : Platform) (env : Env) (s : AgentState)

@[simp] theorem run_readApiVersion :
    readApiVersion.run (handle p env) s = (.ok s.apiVersion, s) := rfl

@[simp] theorem run_writeApiVersion (version : Int) :
    (writeApiVersion version).run (handle p env) s
      = (.ok (), { s with apiVersion := version }) := rfl

@[simp] theorem run_readActiveUser :
    readActiveUser.run (handle p env) s = (.ok s.activeUser, s) := rfl

@[simp] theorem run_writeActiveUser (user : PyStr) :
    (writeActiveUser user).run (handle p env) s = (.ok (), { s with activeUser := user }) := rfl

@[simp] theorem run_dr (q : Query) :
    (dr q).run (handle p env) s = (env.dr s.calls q, { s with calls := s.calls + 1 }) :=
  run_ofExcept _ _

@[simp] theorem run_vioWrite (name : MessageName) (args : Dict) :
    (vioWrite name args).run (handle p env) s
      = (env.vioWrite s.calls name args,
          { s with calls := s.calls + 1, written := s.written ++ [⟨name, args, s.apiVersion⟩] }) :=
  run_ofExcept _ _

theorem run_commandHandler (c : HandlerCall) :
    (commandHandler c).run (handle p env) s =
      if c.method ∈ p.commandHandler then
        (env.commandHandler c, { s with handled := s.handled ++ [c] })
      else (.error .attributeError, s) :=
  run_ofExcept _ _

@[simp] theorem run_listdir (event : HookEvent) :
    (listdir event).run (handle p env) s
      = ((env.listdir event).elim (.error .osError) .ok, s) := by
  rw [listdir, run_bind_ok (run_perform ..)]
  simp only [handle]
  cases env.listdir event <;> rfl

@[simp] theorem run_popen (path : HookPath) :
    (popen path).run (handle p env) s
      = (.ok (env.popen path), { s with executed := s.executed ++ [path] }) := rfl

@[simp] theorem run_log (record : LogRecord) :
    (log record).run (handle p env) s
      = (.ok (), { s with records := s.records ++ [record] }) := rfl

/-- **The gate.**  A message is handed to the channel exactly when its minimum version is not above
the version in force, and otherwise only a log record tells of it. -/
theorem run_send (name : MessageName) (arguments : Option Dict) :
    (send name arguments).run (handle p env) s =
      if messageMinApiVersion name ≤ s.apiVersion then
        (env.vioWrite s.calls name (arguments.getD []),
          { s with calls := s.calls + 1,
                   written := s.written ++ [⟨name, arguments.getD [], s.apiVersion⟩],
                   records := s.records ++ [.sending name arguments] })
      else (.ok (), { s with records := s.records ++ [.notSupported name s.apiVersion] }) := by
  by_cases h : messageMinApiVersion name ≤ s.apiVersion <;> simp [send, run_bind, h]

end Runs

end GuestAgent
