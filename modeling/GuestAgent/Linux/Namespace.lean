import GuestAgent.Library.Effect
import GuestAgent.Library.Transition
import GuestAgent.Python.ByteString
import GuestAgent.Python.Object

/-!
# The mount namespace of a containerised agent

In a container the agent asks the host who is logged in: it enters the mount namespace of the host,
runs a program of the host, and goes back.  The namespace belongs to the calling thread, and what
the thread does next is done wherever it was left.

`getUsers` has everything that can raise in a `try`, and goes back after it.  In `getActiveUser` the
program is run in front of the `try`, so that an exception leaves the thread with the host.
`always_own_iff` says that this is all that can keep it there, but for a `setns` that fails: its
result is not looked at.
-/

set_option autoImplicit false

namespace GuestAgent

open Effect Effect.Prog Transition

/-! ## The functions -/

/-- The two mount namespaces, `selffd` and `hostfd`. -/
inductive Namespace where
  | own | host
  deriving DecidableEq, Repr

/-- `Container.container`. -/
structure Container where
  container : Bool
  deriving DecidableEq, Repr

/-- `Container.__init__`, by the value of `container` in the environment and by whether the two
namespaces can be opened. -/
def Container.init (environ : Option Bytes) (opens : Namespace → Bool) : Container where
  container := environ = some (ascii "docker") ∧ opens .own ∧ opens .host

/-- What the functions do that has an effect. -/
inductive NsAct where
  /-- `libc.setns(fd, 0)`. -/
  | setns (fd : Namespace)
  /-- `os.popen(cmdline)`. -/
  | popen (cmdline : Bytes)
  /-- `read` of the pipe. -/
  | read
  /-- `Error retrieving logged in users.` -/
  | logException

/-- `setns` answers whether it has succeeded. -/
@[reducible] def NsAct.Resp : NsAct → Type
  | setns _ => Bool
  | popen _ => Except PyExn Unit
  | read => Except PyExn Bytes
  | logException => Unit

abbrev NsM := Prog NsAct.Resp PyExn

namespace Container

variable (c : Container)

/-- What `setns` and `resetns` do, in a container. -/
def enter (fd : Namespace) : NsM Unit := do
  if c.container then
    let _ ← perform (.setns fd)

def setns : NsM Unit := c.enter .host

def resetns : NsM Unit := c.enter .own

end Container

/-- `os.popen(cmdline).read()`. -/
def readProcess (cmdline : Bytes) : NsM Bytes := do
  ofExcept (← perform (.popen cmdline))
  ofExcept (← perform .read)

def getUsers (c : Container) : NsM Bytes := do
  c.setns
  let users ← (do
      let out ← readProcess (ascii "/usr/bin/users | /usr/bin/tr \" \" \"\n\" | /usr/bin/uniq")
      return [0x20].intercalate (split out)).tryExcept fun _ ↦ do
    perform NsAct.logException
    return []
  c.resetns
  return users

/-- `users[0]`. -/
def firstUser : List Bytes → Except PyExn Bytes
  | user :: _ => .ok user
  | [] => .error (.other 1)

def getActiveUser (c : Container) : NsM Bytes := do
  c.setns
  let out ← readProcess (ascii "/usr/bin/users")
  let users := split out
  let user ← (ofExcept (firstUser users)).tryExcept fun _ ↦ return ascii "None"
  c.resetns
  return user

/-! ## Calls -/

/-- What a call meets: whether the namespaces can be entered, and what comes of the process. -/
structure ProcessEnv where
  enters : Namespace → Bool
  popen : Except PyExn Unit
  read : Except PyExn Bytes

/-- What an operation does to the namespace of the thread. -/
def ProcessEnv.handle (env : ProcessEnv) : (a : NsAct) → Namespace → a.Resp × Namespace
  | .setns fd, ns => (env.enters fd, if env.enters fd then fd else ns)
  | .popen _, ns => (env.popen, ns)
  | .read, ns => (env.read, ns)
  | .logException, ns => ((), ns)

/-- A call of the data retriever. -/
inductive UserCall where
  | getUsers | getActiveUser
  deriving DecidableEq, Repr

def UserCall.program (c : Container) : UserCall → NsM Bytes
  | getUsers => GuestAgent.getUsers c
  | getActiveUser => GuestAgent.getActiveUser c

/-- The namespace a call leaves the thread in, whether it returns or raises. -/
def callStep (c : Container) (ns : Namespace) (call : UserCall × ProcessEnv) : Namespace :=
  ((call.1.program c).run call.2.handle ns).2

/-- What comes of running a process and reading its output. -/
def ProcessEnv.output (env : ProcessEnv) : Except PyExn Bytes := env.popen >>= fun _ ↦ env.read

/-- A call that gets to the host gets back: `getActiveUser` only if nothing is raised. -/
def Returns (c : Container) : UserCall × ProcessEnv → Prop
  | (.getUsers, env) => c.container → env.enters .host → env.enters .own
  | (.getActiveUser, env) =>
    c.container → env.enters .host → (∃ out, env.output = .ok out) ∧ env.enters .own

section Calls

variable (c : Container) (env : ProcessEnv) (ns : Namespace)

/-- The namespace of the thread when it has called `setns` for `fd`. -/
def entered (c : Container) (env : ProcessEnv) (fd ns : Namespace) : Namespace :=
  if c.container = true ∧ env.enters fd = true then fd else ns

theorem run_enter (fd : Namespace) :
    (c.enter fd).run env.handle ns = (.ok (), entered c env fd ns) := by
  have hrun : (perform (NsAct.setns fd) : NsM Bool).run env.handle ns =
      (.ok (env.enters fd), if env.enters fd then fd else ns) := rfl
  rw [Container.enter, entered]
  cases c.container with
  | false => rfl
  | true =>
    rw [if_pos rfl, run_bind_ok hrun]
    simp

theorem run_setns : c.setns.run env.handle ns = (.ok (), entered c env .host ns) :=
  run_enter c env ns .host

theorem run_resetns : c.resetns.run env.handle ns = (.ok (), entered c env .own ns) :=
  run_enter c env ns .own

/-- Running a process leaves the namespace alone. -/
theorem run_readProcess (cmdline : Bytes) :
    (readProcess cmdline).run env.handle ns = (env.output, ns) := by
  rw [readProcess, ProcessEnv.output, run_bind_ok (run_perform ..), run_bind, run_ofExcept]
  simp only [ProcessEnv.handle]
  cases env.popen with
  | error e => rfl
  | ok u => exact run_ofExcept env.read ns

/-- `getUsers` goes back whatever is raised. -/
theorem exists_run_getUsers : ∃ users, (getUsers c).run env.handle ns =
    (.ok users, entered c env .own (entered c env .host ns)) := by
  rw [getUsers, run_bind_ok (run_setns c env ns), run_bind, run_tryExcept, run_bind,
    run_readProcess]
  cases env.output with
  | error e => exact ⟨[], run_bind_ok (run_resetns ..)⟩
  | ok out => exact ⟨_, run_bind_ok (run_resetns ..)⟩

/-- Something comes of the list of users in any case. -/
theorem exists_run_firstUser (users : List Bytes) :
    ∃ user, ((ofExcept (firstUser users) : NsM Bytes).tryExcept fun _ ↦
      return ascii "None").run env.handle ns = (.ok user, ns) := by
  cases users with
  | nil => exact ⟨_, rfl⟩
  | cons user users => exact ⟨user, rfl⟩

theorem exists_run_getActiveUser {out : Bytes} (h : env.output = .ok out) :
    ∃ user, (getActiveUser c).run env.handle ns =
      (.ok user, entered c env .own (entered c env .host ns)) := by
  obtain ⟨user, huser⟩ := exists_run_firstUser env (entered c env .host ns) (split out)
  refine ⟨user, ?_⟩
  rw [getActiveUser, run_bind_ok (run_setns c env ns), run_bind, run_readProcess, h]
  exact (run_bind_ok huser).trans (run_bind_ok (run_resetns ..))

/-- `getActiveUser` does not go back if running the program raises. -/
theorem run_getActiveUser_error {e : PyExn} (h : env.output = .error e) :
    (getActiveUser c).run env.handle ns = (.error e, entered c env .host ns) := by
  rw [getActiveUser, run_bind_ok (run_setns c env ns), run_bind, run_readProcess, h]

/-- Whoever enters the host's namespace has to go back. -/
theorem entered_own_iff : entered c env .own (entered c env .host .own) = .own ↔
    (c.container → env.enters .host → env.enters .own) := by
  rw [entered, entered]
  cases c.container <;> cases env.enters .host <;> cases env.enters .own <;> decide

theorem entered_host_iff : entered c env .host .own = .own ↔
    ¬ (c.container ∧ env.enters .host) := by
  rw [entered]
  split <;> simp_all

/-- **One call**, from the agent's own namespace. -/
theorem callStep_eq_own_iff (call : UserCall × ProcessEnv) :
    callStep c .own call = .own ↔ Returns c call := by
  obtain ⟨call, env⟩ := call
  cases call with
  | getUsers =>
    obtain ⟨users, hrun⟩ := exists_run_getUsers c env .own
    rw [callStep, UserCall.program, hrun]
    exact entered_own_iff c env
  | getActiveUser =>
    rw [callStep, UserCall.program, Returns]
    cases hout : env.output with
    | error e =>
      rw [run_getActiveUser_error c env .own hout]
      rw [entered_host_iff]
      simp
    | ok out =>
      obtain ⟨user, hrun⟩ := exists_run_getActiveUser c env .own hout
      rw [hrun, entered_own_iff]
      simp

end Calls

/-! ## Every sequence of calls -/

/-- **The thread is in the agent's own namespace after every call exactly when every call that gets
to the host gets back.** -/
theorem always_own_iff (c : Container) (calls : List (UserCall × ProcessEnv)) :
    Always (callStep c) (· = .own) .own calls ↔ ∀ call ∈ calls, Returns c call := by
  have hstep : ∀ ns call, ns = Namespace.own → (callStep c ns call = .own ↔ Returns c call) := by
    rintro ns call rfl
    exact callStep_eq_own_iff c call
  have hrun : Always (callStep c) (· = .own) .own calls ↔
      Each (callStep c) (fun _ ↦ Returns c) .own calls := always_iff_each hstep rfl calls
  exact hrun.trans each_iff_forall_mem

/-- There is no process to be had. -/
theorem not_always_own : ¬ Always (callStep (.init (some (ascii "docker")) fun _ ↦ true)) (· = .own)
    .own [(.getActiveUser, ⟨fun _ ↦ true, .error .osError, .ok []⟩)] := by
  rintro ⟨-, h⟩
  cases h

end GuestAgent
