import GuestAgent.Library.Effect
import GuestAgent.Python.Object

/-!
# What the agent's logic talks to

`AgentLogicBase` is the part of the agent shared by both platforms: it answers the host's commands,
runs the reporting loop and forwards session events.  Everything it does to the outside goes
through a handful of objects: a data retriever, a command handler, the virtio channel, the hooks
directory, the log.  This file lists those interactions as the operations of an interface, so that
the logic itself (`GuestAgent.Agent.Logic`) is a program over them.

* `MessageName` has one constructor for each key of `_MESSAGE_MIN_API_VERSION`, and
  `messageMinApiVersion` is that table.  Every message the logic sends is named by such a key.
* `Query` has the methods of the data retriever the logic calls, with the type of their answers.
* `HandlerCall` has the calls the logic makes on the command handler.  Which of those exist depends
  on the platform: `Method` are the attribute names, and `commandHandler` lists the ones each
  platform's handler class defines.
* `Act` puts them together with the fields of the agent that are read and written, and
  `Act.Resp` gives each operation its answer.  An operation that may raise answers with an
  `Except`.
-/

set_option autoImplicit false

namespace GuestAgent

/-! ## Messages -/

/-- The documented messages: the keys of `_MESSAGE_MIN_API_VERSION`. -/
inductive MessageName where
  | activeUser | applications | completion | disksUsage | echo | fqdn | heartbeat | hostName
  | memoryStats | networkInterfaces | numberOfCpus | osVersion | osInfo | sessionLock
  | sessionLogoff | sessionLogon | sessionShutdown | sessionStartup | sessionUnlock | timezone
  | containers
  deriving DecidableEq, Repr

/-- `_MESSAGE_MIN_API_VERSION`. -/
def messageMinApiVersion : MessageName → Int
  | .completion | .containers => 3
  | .osInfo | .timezone => 2
  | .numberOfCpus => 1
  | _ => 0

/-- The name a message has on the wire. -/
def MessageName.wire : MessageName → String
  | activeUser => "active-user"
  | applications => "applications"
  | completion => "completion"
  | disksUsage => "disks-usage"
  | echo => "echo"
  | fqdn => "fqdn"
  | heartbeat => "heartbeat"
  | hostName => "host-name"
  | memoryStats => "memory-stats"
  | networkInterfaces => "network-interfaces"
  | numberOfCpus => "number-of-cpus"
  | osVersion => "os-version"
  | osInfo => "os-info"
  | sessionLock => "session-lock"
  | sessionLogoff => "session-logoff"
  | sessionLogon => "session-logon"
  | sessionShutdown => "session-shutdown"
  | sessionStartup => "session-startup"
  | sessionUnlock => "session-unlock"
  | timezone => "timezone"
  | containers => "containers"

/-- `_MAX_SUPPORTED_API_VERSION`. -/
def maxSupportedApiVersion : Int := 3

/-- `_DISABLED_API_VALUE`. -/
def disabledApiValue : Int := 0

/-! ## The data retriever -/

/-- The methods of the data retriever the logic calls. -/
inductive Query where
  | getAvailableRAM | getMemoryStats | getActiveUser | getApplications | getContainerList
  | getMachineName | getOsVersion | getAllNetworkInterfaces | getFQDN | getTimezoneInfo
  | getOsInfo | getDisksUsage | getDiskMapping | getNumberOfCPUs
  deriving DecidableEq, Repr

/-- What a method of the data retriever returns. -/
@[reducible] def Query.Ans : Query → Type
  | getActiveUser => PyStr
  | getTimezoneInfo => PyObj × PyObj
  | getOsInfo => Option Dict
  | _ => PyObj

/-! ## The command handler -/

inductive Platform where
  | linux | windows
  deriving DecidableEq, Repr

/-- The attributes the command handler classes define. -/
inductive Method where
  | lockScreen | login | logoff | shutdown | hibernate
  /-- `set_number_of_cpus`. -/
  | setNumberOfCpus
  /-- `setNumberOfCPUs`. -/
  | setNumberOfCPUs
  /-- `_setSoftwareSASPolicy`. -/
  | setSoftwareSASPolicy
  /-- `_performSAS`. -/
  | performSAS
  /-- `LockWorkStation`. -/
  | lockWorkStation
  deriving DecidableEq, Repr

/-- The methods of `CommandHandlerLinux`. -/
def commandHandlerLinux : List Method :=
  [.lockScreen, .login, .logoff, .shutdown, .hibernate, .setNumberOfCpus]

/-- The methods of `CommandHandlerWin`. -/
def commandHandlerWin : List Method :=
  [.lockScreen, .setSoftwareSASPolicy, .performSAS, .login, .logoff, .shutdown, .hibernate,
    .lockWorkStation, .setNumberOfCPUs]

/-- The command handler of a platform. -/
def Platform.commandHandler : Platform → List Method
  | linux => commandHandlerLinux
  | windows => commandHandlerWin

/-- A call of the logic on the command handler. -/
inductive HandlerCall where
  | lockScreen
  | logoff
  | shutdown (timeout : Int) (msg : PyObj) (reboot : Bool)
  | login (credentials : Bytes)
  | hibernate (state : PyObj)
  | setNumberOfCpus (count : PyObj)

/-- The attribute a call looks up. -/
def HandlerCall.method : HandlerCall → Method
  | lockScreen => .lockScreen
  | logoff => .logoff
  | shutdown .. => .shutdown
  | login _ => .login
  | hibernate _ => .hibernate
  | setNumberOfCpus _ => .setNumberOfCpus

/-! ## The hooks directory -/

/-- The four events hooks are run for. -/
inductive HookEvent where
  | beforeHibernation | afterHibernation | beforeMigration | afterMigration
  deriving DecidableEq, Repr

/-- The path of an event's directory below the hooks directory, or of a file in it. -/
structure HookPath where
  event : HookEvent
  file : Option Bytes
  deriving DecidableEq, Repr

/-- What starting a hook and waiting for it gives. -/
inductive HookOutcome where
  /-- `Popen` or `communicate` raised `OSError`. -/
  | failed
  | exited (returncode : Int) (out err : Bytes)
  deriving DecidableEq, Repr

/-! ## The log -/

/-- The records the logic writes to the log. -/
inductive LogRecord where
  /-- `Received an external command: %s...` -/
  | receivedCommand (command : PyObj)
  /-- `Unknown external command: %s (%s)` -/
  | unknownCommand (command : PyObj) (args : Dict)
  /-- `Sending %s with args %s` -/
  | sending (name : MessageName) (arguments : Option Dict)
  /-- `Message %s not supported by api version %d.` -/
  | notSupported (name : MessageName) (apiVersion : Int)
  /-- `Invalid api version value '%s' set. Version value not changed.` -/
  | invalidApiVersion (version : PyObj)
  /-- `API version requested (%d) higher than known (%d). Using max known version.` -/
  | apiVersionTooHigh (version : Int)
  /-- `API version %d already set, no update necessary` -/
  | apiVersionAlreadySet (version : Int)
  /-- `API Version updated from %d to %d` -/
  | apiVersionUpdated (oldVersion version : Int)
  /-- `API versioning not supported by VDSM. Disabling versioning support.` -/
  | versioningNotSupported
  /-- `%s (timeout = %d, message = '%s')` -/
  | shuttingDown (reboot : Bool) (timeout : Int) (msg : PyObj)
  /-- `User log-in (credentials = %s)` -/
  | userLogIn (creds : Bytes)
  /-- `Echo: %s` -/
  | echo (args : Dict)
  /-- `Unknown hook error: %s` -/
  | unknownHookError (hook : Text)
  /-- `AgentLogicBase::sendUserInfo - cur_user = '%s'` -/
  | curUser (user : PyStr)
  /-- The record each session event starts with. -/
  | session (event : MessageName)
  /-- `AgentLogicBase:: doWork() entered` and `... exiting` -/
  | doWork (entered : Bool)
  /-- `AgentLogicBase::doWork`, with the exception. -/
  | doWorkFailed (e : PyExn)
  /-- `Attempting to execute hook %s` -/
  | attemptingHook (path : HookPath)
  /-- `Executing %s failed` -/
  | executingFailed (path : HookPath)
  /-- `Hook(%s) "%s" return non-zero exit code %d ...` -/
  | hookFailed (path : HookPath) (retval : Int) (out err : Bytes)
  /-- `Hook(%s) "%s" executed` -/
  | hookExecuted (path : HookPath)

/-! ## Operations -/

/-- The operations of the logic. -/
inductive Act where
  | readApiVersion
  | writeApiVersion (version : Int)
  | readActiveUser
  | writeActiveUser (user : PyStr)
  | writeDesktopLocked (locked : Bool)
  /-- Call a method of the data retriever. -/
  | dr (q : Query)
  /-- `self.vio.write(name, args)`. -/
  | vioWrite (name : MessageName) (args : Dict)
  /-- Call a method of the command handler. -/
  | commandHandler (c : HandlerCall)
  /-- `os.listdir` of the directory of an event, which gives nothing where it raises `OSError`. -/
  | listdir (event : HookEvent)
  /-- `subprocess.Popen(path, ...)` and `communicate`. -/
  | popen (path : HookPath)
  /-- `self.wait_stop.isSet()`. -/
  | waitStopIsSet
  | log (record : LogRecord)

/-- What an operation answers. -/
@[reducible] def Act.Resp : Act → Type
  | readApiVersion => Int
  | readActiveUser => PyStr
  | dr q => Except PyExn q.Ans
  | vioWrite _ _ => Except PyExn Unit
  | commandHandler _ => Except PyExn Unit
  | listdir _ => Option (List Bytes)
  | popen _ => HookOutcome
  | waitStopIsSet => Bool
  | writeApiVersion _ | writeActiveUser _ | writeDesktopLocked _ | log _ => Unit

/-- A piece of the agent's logic. -/
abbrev AgentM := Effect.Prog Act.Resp PyExn

namespace AgentM

open Effect.Prog

def readApiVersion : AgentM Int := perform Act.readApiVersion

def writeApiVersion (version : Int) : AgentM Unit := perform (Act.writeApiVersion version)

def readActiveUser : AgentM PyStr := perform Act.readActiveUser

def writeActiveUser (user : PyStr) : AgentM Unit := perform (Act.writeActiveUser user)

def writeDesktopLocked (locked : Bool) : AgentM Unit := perform (Act.writeDesktopLocked locked)

/-- `self.dr.q()`. -/
def dr (q : Query) : AgentM q.Ans := do
  let r : Except PyExn q.Ans ← perform (Act.dr q)
  ofExcept r

/-- `self.vio.write(name, args)`. -/
def vioWrite (name : MessageName) (args : Dict) : AgentM Unit := do
  let r : Except PyExn Unit ← perform (Act.vioWrite name args)
  ofExcept r

/-- `self.commandHandler.c(...)`. -/
def commandHandler (c : HandlerCall) : AgentM Unit := do
  let r : Except PyExn Unit ← perform (Act.commandHandler c)
  ofExcept r

/-- `os.listdir(os.path.join(self._hook_dir, event))`. -/
def listdir (event : HookEvent) : AgentM (List Bytes) := do
  let files : Option (List Bytes) ← perform (Act.listdir event)
  match files with
  | some files => pure files
  | none => raise .osError

def popen (path : HookPath) : AgentM HookOutcome := perform (Act.popen path)

def waitStopIsSet : AgentM Bool := perform Act.waitStopIsSet

/-- A call of `logging`. -/
def log (record : LogRecord) : AgentM Unit := perform (Act.log record)

end AgentM
end GuestAgent
