import GuestAgent.Agent.System

/-!
# What the logic is made of

Every method of the agent's logic is assembled from a few pieces: single operations, and `send`,
which reads the version before it writes to the channel.  This file takes each method apart once,
down to those pieces, so that what a run of it preserves can be read off what its pieces do, with
`Effect.Built.respects` and `Effect.Built.simulate`.

`Act.IsReport` are the operations the reports use; `Act.IsQuiet` adds the command handler and the
hooks directory.  Neither contains the one operation that changes the version, and neither contains
a write to the channel outside of `send`.
-/

set_option autoImplicit false

namespace GuestAgent

open Effect Effect.Prog AgentM

/-! ## The pieces the logic is made of -/

/-- The operations the reports use: reading the agent's fields, setting the ones that are not the
version, asking the data retriever, and logging, except for the record of a message held back,
which is `send`'s own. -/
def Act.IsReport : Act → Prop
  | readApiVersion | readActiveUser | writeActiveUser _ | writeDesktopLocked _ | dr _
  | waitStopIsSet => True
  | log (.notSupported _ _) => False
  | log _ => True
  | _ => False

/-- The operations that neither set the version nor write to the channel. -/
def Act.IsQuiet (a : Act) : Prop :=
  a.IsReport ∨ match a with
    | commandHandler _ | listdir _ | popen _ => True
    | _ => False

/-- A `send`, or a single operation satisfying `Q`. -/
inductive Piece (Q : Act → Prop) : (α : Type) → AgentM α → Prop
  | send (name : MessageName) (arguments : Option Dict) : Piece Q Unit (send name arguments)
  | perform (a : Act) (ha : Q a) : Piece Q a.Resp (perform a)

/-- The program is made of `send`s and of operations satisfying `Q`. -/
abbrev MadeOf (Q : Act → Prop) {α : Type} (m : AgentM α) : Prop := Built (Piece Q) α m

section Reports

variable {Q : Act → Prop}

theorem madeOf_perform {a : Act} (ha : Q a) : MadeOf Q (perform a) := .atom (.perform a ha)

theorem madeOf_send (name : MessageName) (arguments : Option Dict) :
    MadeOf Q (send name arguments) :=
  .atom (.send name arguments)

theorem madeOf_reply (id : PyObj) : MadeOf Q (reply id) := madeOf_send _ _

theorem madeOf_commandHandler {c : HandlerCall} (hc : Q (.commandHandler c)) :
    MadeOf Q (commandHandler c) :=
  .bind (madeOf_perform hc) fun _ ↦ .ofExcept _

theorem madeOf_listdir {event : HookEvent} (he : Q (.listdir event)) : MadeOf Q (listdir event) :=
  .bind (madeOf_perform he) fun files ↦ by
    cases files with
    | some files => exact .pure files
    | none => exact .raise _

variable (hQ : ∀ a : Act, a.IsReport → Q a)
include hQ

theorem madeOf_readApiVersion : MadeOf Q readApiVersion :=
  madeOf_perform (hQ .readApiVersion trivial)

theorem madeOf_readActiveUser : MadeOf Q readActiveUser :=
  madeOf_perform (hQ .readActiveUser trivial)

theorem madeOf_writeActiveUser (user : PyStr) : MadeOf Q (writeActiveUser user) :=
  madeOf_perform (hQ (.writeActiveUser user) trivial)

theorem madeOf_writeDesktopLocked (locked : Bool) : MadeOf Q (writeDesktopLocked locked) :=
  madeOf_perform (hQ (.writeDesktopLocked locked) trivial)

theorem madeOf_waitStopIsSet : MadeOf Q waitStopIsSet :=
  madeOf_perform (hQ .waitStopIsSet trivial)

theorem madeOf_log {record : LogRecord} (h : (Act.log record).IsReport) :
    MadeOf Q (log record) :=
  madeOf_perform (hQ _ h)

theorem madeOf_dr (q : Query) : MadeOf Q (dr q) :=
  .bind (madeOf_perform (hQ (.dr q) trivial)) fun _ ↦ .ofExcept _

theorem madeOf_sendFQDN : MadeOf Q sendFQDN :=
  (madeOf_dr hQ _).bind fun _ ↦ madeOf_send _ _

theorem madeOf_sendTimezone : MadeOf Q sendTimezone :=
  (madeOf_dr hQ _).bind fun _ ↦ madeOf_send _ _

theorem madeOf_sendContainerList : MadeOf Q sendContainerList :=
  (madeOf_dr hQ _).bind fun _ ↦ madeOf_send _ _

theorem madeOf_sendAppList : MadeOf Q sendAppList :=
  (madeOf_dr hQ _).bind fun _ ↦ madeOf_send _ _

theorem madeOf_sendNumberOfCPUs : MadeOf Q sendNumberOfCPUs :=
  (madeOf_dr hQ _).bind fun _ ↦ madeOf_send _ _

theorem madeOf_sendOsInfo : MadeOf Q sendOsInfo :=
  (madeOf_dr hQ _).bind fun _ ↦ madeOf_send _ _

theorem madeOf_sendDisksUsages : MadeOf Q sendDisksUsages :=
  (madeOf_dr hQ _).bind fun _ ↦ (madeOf_dr hQ _).bind fun _ ↦ madeOf_send _ _

theorem madeOf_sendInfo : MadeOf Q sendInfo :=
  (madeOf_dr hQ _).bind fun _ ↦ (madeOf_send _ _).bind fun _ ↦
    (madeOf_dr hQ _).bind fun _ ↦ (madeOf_send _ _).bind fun _ ↦
      (madeOf_dr hQ _).bind fun _ ↦ madeOf_send _ _

theorem madeOf_sendUserInfo (force : Bool) : MadeOf Q (sendUserInfo force) := by
  refine (madeOf_dr hQ .getActiveUser).bind fun curUser ↦
    (madeOf_log hQ (by trivial)).bind fun _ ↦ (madeOf_readActiveUser hQ).bind fun _ ↦ ?_
  split
  · exact (madeOf_send _ _).bind fun _ ↦ madeOf_writeActiveUser hQ _
  · exact .pure _

theorem madeOf_sessionStartup : MadeOf Q sessionStartup :=
  (madeOf_log hQ (by trivial)).bind fun _ ↦ madeOf_send _ _

theorem madeOf_sessionShutdown : MadeOf Q sessionShutdown :=
  (madeOf_log hQ (by trivial)).bind fun _ ↦ madeOf_send _ _

theorem madeOf_refresh : MadeOf Q refresh :=
  (madeOf_sessionStartup hQ).bind fun _ ↦ (madeOf_sendUserInfo hQ true).bind fun _ ↦
    (madeOf_sendAppList hQ).bind fun _ ↦ (madeOf_sendContainerList hQ).bind fun _ ↦
      (madeOf_sendInfo hQ).bind fun _ ↦ (madeOf_sendDisksUsages hQ).bind fun _ ↦
        (madeOf_sendFQDN hQ).bind fun _ ↦ (madeOf_sendTimezone hQ).bind fun _ ↦
          madeOf_sendOsInfo hQ

theorem madeOf_awaitUser (retries : Nat) (curUser : PyStr) :
    MadeOf Q (awaitUser retries curUser) := by
  induction retries generalizing curUser with
  | zero => exact .pure _
  | succ retries ih =>
    rw [awaitUser]
    split
    · exact (madeOf_dr hQ .getActiveUser).bind ih
    · exact .pure _

theorem madeOf_sessionLogon : MadeOf Q sessionLogon :=
  (madeOf_log hQ (by trivial)).bind fun _ ↦ (madeOf_dr hQ .getActiveUser).bind fun curUser ↦
    (madeOf_writeDesktopLocked hQ _).bind fun _ ↦ (madeOf_awaitUser hQ 5 curUser).bind fun _ ↦
      (madeOf_sendUserInfo hQ false).bind fun _ ↦ madeOf_send _ _

theorem madeOf_sessionLogoff : MadeOf Q sessionLogoff :=
  (madeOf_writeDesktopLocked hQ _).bind fun _ ↦ (madeOf_log hQ (by trivial)).bind fun _ ↦
    (madeOf_writeActiveUser hQ _).bind fun _ ↦ (madeOf_send _ _).bind fun _ ↦
      (madeOf_readActiveUser hQ).bind fun _ ↦ madeOf_send _ _

theorem madeOf_sessionLock : MadeOf Q sessionLock :=
  (madeOf_writeDesktopLocked hQ _).bind fun _ ↦ (madeOf_log hQ (by trivial)).bind fun _ ↦
    madeOf_send _ _

theorem madeOf_sessionUnlock : MadeOf Q sessionUnlock :=
  (madeOf_writeDesktopLocked hQ _).bind fun _ ↦ (madeOf_log hQ (by trivial)).bind fun _ ↦
    madeOf_send _ _

/-! ### The worker -/

theorem madeOf_doWorkStart (config : Config) : MadeOf Q (doWorkStart config) :=
  (madeOf_sessionStartup hQ).bind fun _ ↦ (madeOf_log hQ (by trivial)).bind fun _ ↦
    (madeOf_sendInfo hQ).bind fun _ ↦ (madeOf_sendUserInfo hQ false).bind fun _ ↦
      (madeOf_sendAppList hQ).bind fun _ ↦ (madeOf_sendContainerList hQ).bind fun _ ↦
        (madeOf_sendFQDN hQ).bind fun _ ↦ (madeOf_sendTimezone hQ).bind fun _ ↦
          (madeOf_sendOsInfo hQ).bind fun _ ↦ .pure _

omit hQ in
theorem madeOf_countdown (rate secs : Int) {group : AgentM Unit} (h : MadeOf Q group) :
    MadeOf Q (countdown rate secs group) := by
  rw [countdown]
  split
  · exact h.bind fun _ ↦ .pure _
  · exact .pure _

theorem madeOf_sendHeartbeat (reportedVersion : Int) : MadeOf Q (sendHeartbeat reportedVersion) :=
  (madeOf_dr hQ _).bind fun _ ↦ (madeOf_dr hQ _).bind fun _ ↦ madeOf_send _ _

theorem madeOf_sendAppGroup : MadeOf Q sendAppGroup :=
  (madeOf_sendAppList hQ).bind fun _ ↦ (madeOf_sendContainerList hQ).bind fun _ ↦
    (madeOf_sendInfo hQ).bind fun _ ↦ madeOf_sendFQDN hQ

theorem madeOf_doWorkIteration (config : Config) (c : Counters) :
    MadeOf Q (doWorkIteration config c) :=
  (madeOf_countdown _ _ (madeOf_sendHeartbeat hQ _)).bind fun _ ↦
    (madeOf_countdown _ _ (madeOf_sendUserInfo hQ false)).bind fun _ ↦
      (madeOf_countdown _ _ (madeOf_sendAppGroup hQ)).bind fun _ ↦
        (madeOf_countdown _ _ (madeOf_sendDisksUsages hQ)).bind fun _ ↦
          (madeOf_countdown _ _ (madeOf_sendNumberOfCPUs hQ)).bind fun _ ↦ .pure _

theorem madeOf_doWorkRound (config : Config) (c : Counters) :
    MadeOf Q (doWorkRound config c) := by
  refine .tryExcept ((madeOf_waitStopIsSet hQ).bind fun stop ↦ ?_) fun e ↦
    (madeOf_log hQ (by trivial)).bind fun _ ↦ .pure _
  split
  · exact (madeOf_log hQ (by trivial)).bind fun _ ↦ .pure _
  · exact (madeOf_doWorkIteration hQ config c).bind fun _ ↦ .pure _

theorem madeOf_workerStep (config : Config) (w : Worker) : MadeOf Q (workerStep config w) := by
  cases w with
  | starting => exact (madeOf_doWorkStart hQ config).bind fun _ ↦ .pure _
  | looping c =>
    refine (madeOf_doWorkRound hQ config c).bind fun next ↦ ?_
    cases next with
    | some c => exact .pure _
    | none => exact (madeOf_sessionShutdown hQ).bind fun _ ↦ .pure _
  | finished => exact .pure _

/-! ### Setting the version -/

section Version

variable (hset : ∀ version, Q (.writeApiVersion version))
include hset

theorem madeOf_storeAPIVersion (old version : Int) : MadeOf Q (storeAPIVersion old version) := by
  refine (madeOf_readApiVersion hQ).bind fun _ ↦ ?_
  split
  · exact madeOf_log hQ (by trivial)
  · exact (madeOf_perform (hset version)).bind fun _ ↦ madeOf_log hQ (by trivial)

theorem madeOf_setIntAPIVersion (old version : Int) :
    MadeOf Q (setIntAPIVersion old version) := by
  rw [setIntAPIVersion]
  split
  · exact (madeOf_log hQ (by trivial)).bind fun _ ↦ madeOf_storeAPIVersion hQ hset _ _
  · exact madeOf_storeAPIVersion hQ hset _ _

theorem madeOf_setAPIVersion (version : PyObj) : MadeOf Q (setAPIVersion version) := by
  refine (madeOf_readApiVersion hQ).bind fun old ↦ ?_
  split
  · exact madeOf_setIntAPIVersion hQ hset _ _
  · split
    · exact madeOf_log hQ (by trivial)
    · exact .raise _

theorem madeOf_onApiVersion (args : Dict) : MadeOf Q (onApiVersion args) := by
  refine (madeOf_readApiVersion hQ).bind fun before ↦ (Built.ofExcept _).bind fun version ↦
    (madeOf_setAPIVersion hQ hset version).bind fun _ ↦ (madeOf_readApiVersion hQ).bind fun _ ↦ ?_
  split
  · exact madeOf_refresh hQ
  · exact .pure _

theorem madeOf_refreshCommand (args : Dict) : MadeOf Q (refreshCommand args) := by
  refine (madeOf_readApiVersion hQ).bind fun _ ↦ ?_
  split
  · exact (madeOf_log hQ (by trivial)).bind fun _ ↦
      (madeOf_setAPIVersion hQ hset _).bind fun _ ↦ madeOf_refresh hQ
  · exact madeOf_refresh hQ

end Version

/-- `parseCommand`, from what the branches of the commands that do more than call the handler are
made of. -/
theorem madeOf_parseCommand {command : PyObj} {args : Dict}
    (hcall : ∀ c : HandlerCall, c.method ≠ .setNumberOfCpus → Q (.commandHandler c))
    (hversion : Command.ofObj command = some .apiVersion → MadeOf Q (onApiVersion args))
    (hrefresh : Command.ofObj command = some .refresh → MadeOf Q (refreshCommand args))
    (hcpus : Command.ofObj command = some .setNumberOfCpus → MadeOf Q (setCpusCommand args))
    (hevent : Command.ofObj command = some .lifecycleEvent → MadeOf Q (lifecycleEvent args)) :
    MadeOf Q (parseCommand command args) := by
  have call : ∀ c : HandlerCall, c.method ≠ .setNumberOfCpus → MadeOf Q (commandHandler c) :=
    fun c hc ↦ madeOf_commandHandler (hcall c hc)
  refine (madeOf_log hQ (by trivial)).bind fun _ ↦ ?_
  split
  · exact call _ (by decide)
  · exact call _ (by decide)
  · exact hversion (by assumption)
  · exact (madeOf_log hQ (by trivial)).bind fun _ ↦ call _ Method.noConfusion
  · exact (Built.ofExcept _).bind fun _ ↦ (madeOf_log hQ (by trivial)).bind fun _ ↦
      call _ Method.noConfusion
  · exact hrefresh (by assumption)
  · exact (madeOf_log hQ (by trivial)).bind fun _ ↦ madeOf_send _ _
  · exact call _ Method.noConfusion
  · exact hcpus (by assumption)
  · exact hevent (by assumption)
  · exact madeOf_log hQ (by trivial)

end Reports

/-! ### Hooks and commands -/

theorem Act.IsReport.isQuiet (a : Act) (h : a.IsReport) : a.IsQuiet := .inl h

theorem madeOf_execute (path : HookPath) : MadeOf Act.IsQuiet (execute path) := by
  refine (madeOf_perform (.inr trivial)).bind fun outcome ↦ ?_
  cases outcome with
  | failed => exact (madeOf_log Act.IsReport.isQuiet (by trivial)).bind fun _ ↦ .pure _
  | exited returncode out err => exact .pure _

theorem madeOf_runHook (path : HookPath) : MadeOf Act.IsQuiet (runHook path) := by
  refine (madeOf_log Act.IsReport.isQuiet (by trivial)).bind fun _ ↦
    (madeOf_execute path).bind fun out ↦ ?_
  dsimp only
  split <;> exact madeOf_log Act.IsReport.isQuiet (by trivial)

theorem madeOf_runAll (paths : List HookPath) : MadeOf Act.IsQuiet (runAll paths) := by
  induction paths with
  | nil => exact .pure _
  | cons path paths ih => exact (madeOf_runHook path).bind fun _ ↦ ih

theorem madeOf_findHooks (event : HookEvent) : MadeOf Act.IsQuiet (findHooks event) :=
  (madeOf_listdir (.inr trivial)).bind fun _ ↦ .pure _

theorem madeOf_dispatch (hook : PyObj) : MadeOf Act.IsQuiet (dispatch hook) := by
  refine (Built.ofExcept _).bind fun attr ↦ ?_
  rcases attr with _ | (e | _ | _ | _)
  · exact .raise _
  · exact (madeOf_findHooks e).bind madeOf_runAll
  · exact .pure _
  · exact .raise _
  · exact .raise _

theorem madeOf_tryDispatch (name : PyObj) : MadeOf Act.IsQuiet (tryDispatch name) := by
  refine .tryExcept (madeOf_dispatch _) fun e ↦ ?_
  split
  · exact madeOf_log Act.IsReport.isQuiet (by trivial)
  · exact .raise _

theorem madeOf_replyTo (args : Dict) : MadeOf Act.IsQuiet (replyTo args) := by
  rw [replyTo]
  split
  · exact madeOf_reply _
  · exact .pure _

theorem madeOf_lifecycleEvent (args : Dict) : MadeOf Act.IsQuiet (lifecycleEvent args) := by
  rw [lifecycleEvent]
  split
  · exact (madeOf_tryDispatch _).bind fun _ ↦ madeOf_replyTo _
  · exact madeOf_replyTo _

/-- Every command but the two that set the version is made of `send`s and quiet operations. -/
theorem madeOf_quietCommand {command : PyObj} (args : Dict)
    (hv : Command.ofObj command ≠ some .apiVersion) (hr : Command.ofObj command ≠ some .refresh) :
    MadeOf Act.IsQuiet (parseCommand command args) := by
  refine madeOf_parseCommand Act.IsReport.isQuiet (fun c _ ↦ .inr trivial) (fun h ↦ absurd h hv)
    (fun h ↦ absurd h hr) (fun _ ↦ ?_) fun _ ↦ madeOf_lifecycleEvent args
  rw [setCpusCommand]
  split
  · exact (madeOf_commandHandler (.inr trivial)).bind fun _ ↦
      madeOf_sendNumberOfCPUs Act.IsReport.isQuiet
  · exact .pure _

end GuestAgent
