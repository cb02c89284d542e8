import GuestAgent.Agent.Hooks
import GuestAgent.Credentials.Block

/-!
# The logic of the agent

The methods of `AgentLogicBase`, in the order of the source, and `setAPIVersion` of the data
retriever, as programs over the operations of `GuestAgent.Agent.Interface`.

Three threads run them: the worker reports periodically (`workerStep`), the listener answers host
commands (`parseCommand`), and in the Windows service a third one forwards session events.
-/

set_option autoImplicit false

namespace GuestAgent

open Effect.Prog AgentM

/-! ## The version of the protocol -/

/-- The end of `setAPIVersion`, with the version converted and clamped. -/
def storeAPIVersion (oldVersion version : Int) : AgentM Unit := do
  if version = (← readApiVersion) then log (.apiVersionAlreadySet version)
  else do
    writeApiVersion version
    -- `onAPIVersionUpdated` has no override and does nothing
    log (.apiVersionUpdated oldVersion version)

/-- `setAPIVersion` from where `int` has converted the version. -/
def setIntAPIVersion (oldVersion version : Int) : AgentM Unit := do
  if maxSupportedApiVersion < version then do
    log (.apiVersionTooHigh version)
    storeAPIVersion oldVersion maxSupportedApiVersion
  else storeAPIVersion oldVersion version

/-- `setAPIVersion`. -/
def setAPIVersion (version : PyObj) : AgentM Unit := do
  let oldVersion ← readApiVersion
  match version.toInt with
  | .ok n => setIntAPIVersion oldVersion n
  | .error e => if e.isValueError then log (.invalidApiVersion version) else raise e

/-! ## Sending -/

/-- `_send`.  The arguments `None` and `{}` are both written as an empty dict. -/
def send (name : MessageName) (arguments : Option Dict) : AgentM Unit := do
  let version := messageMinApiVersion name
  if version ≤ (← readApiVersion) then do
    log (.sending name arguments)
    vioWrite name (arguments.getD [])
  else log (.notSupported name (← readApiVersion))

/-- `reply`, with the keyword argument `done=True` of its only call. -/
def reply (id : PyObj) : AgentM Unit :=
  send .completion (some [(key "reply_id", id), (key "done", .bool true)])

def sendFQDN : AgentM Unit := do
  let fqdn ← dr .getFQDN
  send .fqdn (some [(key "fqdn", fqdn)])

def sendUserInfo (force : Bool) : AgentM Unit := do
  let curUser : PyStr ← dr .getActiveUser
  log (.curUser curUser)
  if !curUser.eq (← readActiveUser) || force then do
    send .activeUser (some [(key "name", .str curUser)])
    writeActiveUser curUser

def sendTimezone : AgentM Unit := do
  let ti : PyObj × PyObj ← dr .getTimezoneInfo
  send .timezone (some [(key "zone", ti.1), (key "offset", ti.2)])

def sendInfo : AgentM Unit := do
  let name ← dr .getMachineName
  send .hostName (some [(key "name", name)])
  let version ← dr .getOsVersion
  send .osVersion (some [(key "version", version)])
  let interfaces ← dr .getAllNetworkInterfaces
  send .networkInterfaces (some [(key "interfaces", interfaces)])

def sendContainerList : AgentM Unit := do
  let list ← dr .getContainerList
  send .containers (some [(key "list", list)])

def sendAppList : AgentM Unit := do
  let applications ← dr .getApplications
  send .applications (some [(key "applications", applications)])

def sendDisksUsages : AgentM Unit := do
  let disks ← dr .getDisksUsage
  let mapping ← dr .getDiskMapping
  send .disksUsage (some [(key "disks", disks), (key "mapping", mapping)])

def sendNumberOfCPUs : AgentM Unit := do
  let count ← dr .getNumberOfCPUs
  send .numberOfCpus (some [(key "count", count)])

def sendOsInfo : AgentM Unit := do
  let info : Option Dict ← dr .getOsInfo
  send .osInfo info

/-! ## Session events -/

def sessionStartup : AgentM Unit := do
  log (.session .sessionStartup)
  send .sessionStartup none

def sessionShutdown : AgentM Unit := do
  log (.session .sessionShutdown)
  send .sessionShutdown none

/-- The loop of `sessionLogon`, with the number of retries left. -/
def awaitUser : Nat → PyStr → AgentM Unit
  | 0, _ => pure ()
  | retries + 1, curUser => do
    if curUser.eq (key "None") then do
      let curUser : PyStr ← dr .getActiveUser
      awaitUser retries curUser

def sessionLogon : AgentM Unit := do
  log (.session .sessionLogon)
  let curUser : PyStr ← dr .getActiveUser
  writeDesktopLocked false
  awaitUser 5 curUser
  sendUserInfo false
  send .sessionLogon none

def sessionLogoff : AgentM Unit := do
  writeDesktopLocked true
  log (.session .sessionLogoff)
  writeActiveUser (key "None")
  send .sessionLogoff none
  let user ← readActiveUser
  send .activeUser (some [(key "name", .str user)])

def sessionLock : AgentM Unit := do
  writeDesktopLocked true
  log (.session .sessionLock)
  send .sessionLock none

def sessionUnlock : AgentM Unit := do
  writeDesktopLocked false
  log (.session .sessionUnlock)
  send .sessionUnlock none

/-! ## Host commands -/

/-- `_refresh`. -/
def refresh : AgentM Unit := do
  sessionStartup
  sendUserInfo true
  sendAppList
  sendContainerList
  sendInfo
  sendDisksUsages
  sendFQDN
  sendTimezone
  sendOsInfo

/-- `_onApiVersion`. -/
def onApiVersion (args : Dict) : AgentM Unit := do
  let before ← readApiVersion
  let version ← ofExcept (args.getItem (key "apiVersion"))
  setAPIVersion version
  if before ≠ (← readApiVersion) then refresh

/-- The commands `parseCommand` knows. -/
inductive Command where
  | lockScreen | logOff | apiVersion | shutdown | login | refresh | echo | hibernate
  | setNumberOfCpus | lifecycleEvent
  deriving DecidableEq, Repr

/-- The names the commands are compared with, in the order of the comparisons. -/
def commandNames : List (String × Command) :=
  [("lock-screen", .lockScreen), ("log-off", .logOff), ("api-version", .apiVersion),
   ("shutdown", .shutdown), ("login", .login), ("refresh", .refresh), ("echo", .echo),
   ("hibernate", .hibernate), ("set-number-of-cpus", .setNumberOfCpus),
   ("lifecycle-event", .lifecycleEvent)]

/-- The command a host-supplied name is equal to. -/
def Command.ofObj : PyObj → Option Command
  | .str s => (commandNames.find? fun p ↦ s.eq (key p.1)).map Prod.snd
  | _ => none

/-- `x.lower() == 'true'`, or `False` where that raises. -/
def lowerIsTrue : PyObj → Bool
  | .str (.str b) => b.map (fun c ↦ if 0x41 ≤ c && c ≤ 0x5A then c + 0x20 else c) == ascii "true"
  | .str (.unicode t) => t.map (fun c ↦ if 0x41 ≤ c && c ≤ 0x5A then c + 0x20 else c) == u "true"
  | _ => false

/-- The arguments of `shutdown`, each with its default where reading it raises. -/
def shutdownArgs (args : Dict) : Int × PyObj × Bool :=
  (match (args.getItem (key "timeout")).bind PyObj.toInt with
    | .ok timeout => timeout
    | .error _ => 0,
   (args.get? (key "message")).getD (.str (key "System is going down")),
   ((args.get? (key "reboot")).map lowerIsTrue).getD false)

/-- `hooks.dispatch` with `UnknownHookError` caught, as `parseCommand` calls it. -/
def tryDispatch (name : PyObj) : AgentM Unit :=
  (dispatch name).tryExcept fun
    | .unknownHookError hook => log (.unknownHookError hook)
    | e => raise e

/-- The reply to a command, if its arguments ask for one. -/
def replyTo (args : Dict) : AgentM Unit :=
  match args.get? (key "reply_id") with
  | some id => reply id
  | none => pure ()

/-- The branch of `parseCommand` for `lifecycle-event`. -/
def lifecycleEvent (args : Dict) : AgentM Unit := do
  let name := (args.get? (key "type")).getD .none
  let args := args.del (key "type")
  if name.truthy then tryDispatch name
  replyTo args

/-- The branch of `parseCommand` for `refresh`. -/
def refreshCommand (args : Dict) : AgentM Unit := do
  if !args.contains (key "apiVersion") && decide ((← readApiVersion) > 0) then do
    log .versioningNotSupported
    setAPIVersion (.int disabledApiValue)
  refresh

/-- The branch of `parseCommand` for `set-number-of-cpus`. -/
def setCpusCommand (args : Dict) : AgentM Unit := do
  let count := (args.get? (key "count")).getD (.int 0)
  if count.gtZero then do
    commandHandler (.setNumberOfCpus count)
    sendNumberOfCPUs

/-- `parseCommand`. -/
def parseCommand (command : PyObj) (args : Dict) : AgentM Unit := do
  log (.receivedCommand command)
  match Command.ofObj command with
  | some .lockScreen => commandHandler .lockScreen
  | some .logOff => commandHandler .logoff
  | some .apiVersion => onApiVersion args
  | some .shutdown => do
    let (timeout, msg, reboot) := shutdownArgs args
    log (.shuttingDown reboot timeout msg)
    commandHandler (.shutdown timeout msg reboot)
  | some .login => do
    let credentials ← ofExcept (loginCredentials args)
    log (.userLogIn (safeCredsRepr credentials))
    commandHandler (.login credentials)
  | some .refresh => refreshCommand args
  | some .echo => do
    log (.echo args)
    send .echo (some args)
  | some .hibernate =>
    commandHandler (.hibernate ((args.get? (key "state")).getD (.str (key "disk"))))
  | some .setNumberOfCpus => setCpusCommand args
  | some .lifecycleEvent => lifecycleEvent args
  | none => log (.unknownCommand command args)

/-! ## The worker -/

/-- The report rates of the configuration. -/
structure Config where
  heartBitRate : Int
  userCheckRate : Int
  appRefreshRate : Int
  disksRefreshRate : Int
  numCPUsCheckRate : Int

/-- The rates of the default configuration file. -/
def Config.default : Config where
  heartBitRate := 5
  userCheckRate := 10
  appRefreshRate := 120
  disksRefreshRate := 300
  numCPUsCheckRate := 60

/-- The local variables of `doWork`. -/
structure Counters where
  counter : Int
  hbsecs : Int
  appsecs : Int
  disksecs : Int
  usersecs : Int
  numcpusecs : Int
  reportedVersion : Int
  deriving DecidableEq, Repr

/-- The reports of `doWork` before its loop, and the values its variables start with. -/
def doWorkStart (config : Config) : AgentM Counters := do
  sessionStartup
  log (.doWork true)
  sendInfo
  sendUserInfo false
  sendAppList
  sendContainerList
  sendFQDN
  sendTimezone
  sendOsInfo
  pure { counter := 0, hbsecs := config.heartBitRate, appsecs := config.appRefreshRate,
         disksecs := config.disksRefreshRate, usersecs := config.userCheckRate,
         numcpusecs := config.numCPUsCheckRate, reportedVersion := disabledApiValue }

/-- A countdown of the loop: decrement, and at zero or below run `group` and start again. -/
def countdown (rate secs : Int) (group : AgentM Unit) : AgentM Int := do
  let secs := secs - 1
  if secs ≤ 0 then do
    group
    pure rate
  else pure secs

/-- The heartbeat of an iteration. -/
def sendHeartbeat (reportedVersion : Int) : AgentM Unit := do
  let ram ← dr .getAvailableRAM
  let stats ← dr .getMemoryStats
  send .heartbeat (some [(key "free-ram", ram), (key "memory-stat", stats),
    (key "apiVersion", .int reportedVersion)])

/-- The application, containers, info and FQDN reports of an iteration. -/
def sendAppGroup : AgentM Unit := do
  sendAppList
  sendContainerList
  sendInfo
  sendFQDN

/-- One iteration of the loop of `doWork`. -/
def doWorkIteration (config : Config) (c : Counters) : AgentM Counters := do
  let hbsecs ← countdown config.heartBitRate c.hbsecs (sendHeartbeat c.reportedVersion)
  let reportedVersion := if c.hbsecs - 1 ≤ 0 then maxSupportedApiVersion else c.reportedVersion
  let usersecs ← countdown config.userCheckRate c.usersecs (sendUserInfo false)
  let appsecs ← countdown config.appRefreshRate c.appsecs sendAppGroup
  let disksecs ← countdown config.disksRefreshRate c.disksecs sendDisksUsages
  let numcpusecs ← countdown config.numCPUsCheckRate c.numcpusecs sendNumberOfCPUs
  pure { counter := c.counter + 1, hbsecs, appsecs, disksecs, usersecs, numcpusecs,
         reportedVersion }

/-- Where the worker is in `doWork`. -/
inductive Worker where
  | starting
  | looping (c : Counters)
  | finished
  deriving DecidableEq, Repr

/-- One round of the `try` block of `doWork`: nothing is returned when the loop ends. -/
def doWorkRound (config : Config) (c : Counters) : AgentM (Option Counters) :=
  tryExcept (do
    if ← waitStopIsSet then do
      log (.doWork false)
      pure none
    else do
      let c ← doWorkIteration config c
      pure (some c))
    fun e ↦ do
      log (.doWorkFailed e)
      pure none

/-- The worker's next step: the reports before the loop, or one round of it.  The end of the loop
is followed by the shutdown report; an exception before the loop ends the thread. -/
def workerStep (config : Config) : Worker → AgentM Worker
  | .starting => do
    let c ← doWorkStart config
    pure (.looping c)
  | .looping c => do
    match ← doWorkRound config c with
    | some c => pure (.looping c)
    | none => do
      sessionShutdown
      pure .finished
  | .finished => pure .finished

end GuestAgent
