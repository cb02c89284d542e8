import GuestAgent.Library.Handlers
import GuestAgent.Python.Getopt
import GuestAgent.Python.Numeral
import Mathlib.Data.List.Infix

/-!
# The pid file

The Linux agent writes its process identifier to a file that can be chosen on the command line, and
the plugins of the display manager take the agent to be alive by the file that is the default.  The
file is written well into the run, after everything that is most likely to fail.  It is removed in
the outermost `finally`, which is reached from everywhere but `os._exit`, and it is always the
default file that is removed there.

So an agent that fails to start removes the file of the one that is running, and an agent that was
given another file leaves that behind.  `ownPidfile_iff` says which command lines and which failures
are safe from both.

A signal that kills the process is not a point at which the program does anything, and is left out.
-/

set_option autoImplicit false

namespace GuestAgent.Daemon

open Effect Effect.Prog Getopt

/-! ## The operations -/

inductive Stream where
  | stdin | stdout | stderr
  deriving DecidableEq, Repr

/-- The calls that do something or raise. -/
inductive Call where
  /-- The `print` statements of `usage`, or of the handler of `GetoptError`. -/
  | print (lines : List Bytes)
  /-- `OVirtAgentDaemon()`. -/
  | init
  /-- `config.read`, of the three files. -/
  | readConfig
  /-- `LinuxVdsAgent(config)`. -/
  | newAgent
  | umask (mask : ℕ)
  | setsid
  | chdir (path : Bytes)
  | reopenFileAsNull (oldfile : Stream)
  /-- `file(path, "w")`. -/
  | open (path : Bytes)
  | write (text : Bytes)
  | close
  | chmod (path : Bytes) (mode : ℕ)
  | registerSignalHandler
  /-- `self.agent.run()`, until it is stopped. -/
  | runAgent
  | unlink (path : Bytes)
  deriving DecidableEq, Repr

/-- What is written to the log. -/
inductive DaemonLog where
  /-- `Starting oVirt guest agent` -/
  | starting
  /-- `oVirt guest agent is down.` -/
  | down
  /-- `Unhandled exception in oVirt guest agent!` -/
  | unhandled
  deriving DecidableEq, Repr

inductive DaemonAct where
  | call (c : Call)
  | getppid
  | getpid
  | fork
  | log (record : DaemonLog)

@[reducible] def DaemonAct.Resp : DaemonAct → Type
  | call _ => Except PyExn Unit
  | getppid | getpid => ℕ
  | fork => Except PyExn ℕ
  | log _ => Unit

/-- What the program ends with when it does not return. -/
inductive Raised where
  | exn (e : PyExn)
  | getoptError (e : GetoptError)
  /-- `SystemExit`, of `sys.exit`. -/
  | systemExit (status : ℕ)
  /-- `os._exit`, which is no exception: nothing catches it, and no `finally` is run. -/
  | exit (status : ℕ)
  deriving DecidableEq, Repr

abbrev DaemonM := Prog DaemonAct.Resp Raised

/-- What a handler catches. -/
def Raised.IsException : Raised → Prop
  | exit _ => False
  | _ => True

instance : DecidablePred Raised.IsException
  | .exit _ => .isFalse id
  | .exn _ | .getoptError _ | .systemExit _ => .isTrue trivial

def call (c : Call) : DaemonM Unit := do
  let r : Except PyExn Unit ← perform (DaemonAct.call c)
  ofExcept (r.mapError .exn)

/-- The calls, one after the other. -/
def calls : List Call → DaemonM Unit
  | [] => pure ()
  | c :: cs => do
    call c
    calls cs

def log (record : DaemonLog) : DaemonM Unit := perform (DaemonAct.log record)

/-! ## The program -/

/-- `AGENT_PIDFILE`. -/
def agentPidfile : Bytes := ascii "/run/ovirt-guest-agent.pid"

/-- What the child of `_daemonize` does. -/
def detach : List Call :=
  [.umask 0, .setsid, .chdir (ascii "/"), .reopenFileAsNull .stdin, .reopenFileAsNull .stdout,
    .reopenFileAsNull .stderr]

/-- `_daemonize`. -/
def daemonize : DaemonM Unit := do
  let ppid : ℕ ← perform DaemonAct.getppid
  if ppid = 1 then raise (.exn (.other 2))
  else do
    let r : Except PyExn ℕ ← perform DaemonAct.fork
    let pid ← ofExcept (r.mapError .exn)
    if pid = 0 then calls detach else raise (.exit 0)

/-- `OVirtAgentDaemon.run`, from where the pid file is opened. -/
def runWithPidfile (pidfile : Bytes) : DaemonM Unit := do
  call (.open pidfile)
  let pid : ℕ ← perform DaemonAct.getpid
  calls [.write (strNat pid ++ ascii "\n"), .close, .chmod pidfile 0o644, .registerSignalHandler,
    .runAgent]
  log .down

/-- What `run` does before it becomes a daemon. -/
def create : List Call := [.readConfig, .newAgent]

/-- `OVirtAgentDaemon.run`. -/
def run (daemon : Bool) (pidfile : Bytes) : DaemonM Unit := do
  log .starting
  calls create
  (if daemon then daemonize else pure ())
  runWithPidfile pidfile

/-- What `usage` prints. -/
def usage (argv0 : Bytes) : List Bytes :=
  [ascii "Usage: " ++ argv0 ++ ascii " [OPTION]...",
    [],
    ascii "  -p, --pidfile\t\tset pid file name (default: " ++ agentPidfile ++ ascii ")",
    ascii "  -d\t\t\trun program as a daemon.",
    ascii "  -h, --help\t\tdisplay this help and exit.",
    []]

/-- What is printed for an option that `getopt` does not accept. -/
def tryHelp (argv0 : Bytes) (err : GetoptError) : List Bytes :=
  [err.msg, ascii "Try `" ++ argv0 ++ ascii " --help' for more information."]

def helpOptions : List Bytes := [ascii "-h", ascii "-?", ascii "--help"]

def pidfileOptions : List Bytes := [ascii "-p", ascii "--pidfile"]

/-- The loop over the options. -/
def readOptions (argv0 : Bytes) : List Opt → Bytes → Bool → DaemonM (Bytes × Bool)
  | [], pidfile, daemon => pure (pidfile, daemon)
  | (opt, value) :: opts, pidfile, daemon =>
    if helpOptions.contains opt then do
      call (.print (usage argv0))
      raise (.exit 2)
    else if pidfileOptions.contains opt then readOptions argv0 opts value daemon
    else if opt <:+: ascii "-d" then readOptions argv0 opts pidfile true
    else readOptions argv0 opts pidfile daemon

/-- `getopt.getopt(sys.argv[1:], "?hp:d", ["help", "pidfile="])`. -/
def parse (args : List Bytes) : Except GetoptError (List Opt × List Bytes) :=
  getopt args (ascii "?hp:d") [ascii "help", ascii "pidfile="]

/-- The inner `try` block, with what comes of `parse`. -/
def start (argv0 : Bytes) (parsed : Except GetoptError (List Opt × List Bytes)) : DaemonM Unit := do
  let (opts, _) ← ofExcept (parsed.mapError .getoptError)
  let (pidfile, daemon) ← readOptions argv0 opts agentPidfile false
  call .init
  run daemon pidfile

/-- The handlers of the inner `try` block. -/
def handler (argv0 : Bytes) : Raised → DaemonM Unit
  | .getoptError err => do
    call (.print (tryHelp argv0 err))
    raise (.exit 2)
  | _ => do
    log .unhandled
    raise (.systemExit 1)

/-- The `finally` block. -/
def cleanUp : DaemonM Unit :=
  tryCatch Raised.IsException (call (.unlink agentPidfile)) fun _ ↦ pure ()

/-- The two `try` statements, around `p`. -/
def protect (argv0 : Bytes) (p : DaemonM Unit) : DaemonM Unit :=
  tryFinally Raised.IsException (tryCatch Raised.IsException p (handler argv0)) cleanUp

/-- The program. -/
def main (argv0 : Bytes) (args : List Bytes) : DaemonM Unit :=
  protect argv0 (start argv0 (parse args))

/-! ## Files -/

/-- What a process meets. -/
structure DaemonEnv where
  call : Call → Except PyExn Unit
  ppid : ℕ
  pid : ℕ
  fork : Except PyExn ℕ

/-- The working directory of a process, and the pid files it has written and removed. -/
structure ProcessState (File : Type) where
  cwd : Bytes
  written : List File
  removed : List File
  deriving DecidableEq, Repr

section Files

-- `file` is the file that a path names, from a working directory.
variable {File : Type} (file : Bytes → Bytes → File)

/-- The process when the call has succeeded. -/
def ProcessState.after (s : ProcessState File) : Call → ProcessState File
  | .chdir path => { s with cwd := path }
  | .open path => { s with written := s.written ++ [file s.cwd path] }
  | .unlink path => { s with removed := s.removed ++ [file s.cwd path] }
  | _ => s

def DaemonEnv.handle (env : DaemonEnv) :
    (a : DaemonAct) → ProcessState File → a.Resp × ProcessState File
  | .call c, s => (env.call c, if (env.call c).isOk then s.after file c else s)
  | .getppid, s => (env.ppid, s)
  | .getpid, s => (env.pid, s)
  | .fork, s => (env.fork, s)
  | .log _, s => ((), s)

/-- The process when it has come to its end. -/
def exit (env : DaemonEnv) (cwd argv0 : Bytes) (args : List Bytes) : ProcessState File :=
  ((main argv0 args).run (env.handle file) ⟨cwd, [], []⟩).2

end Files

/-! ## Command lines and failures -/

def AsksHelp (opts : List Opt) : Prop := ∃ o ∈ opts, o.1 ∈ helpOptions

def Daemonizes (opts : List Opt) : Prop := ∃ o ∈ opts, o.1 = ascii "-d"

instance (opts : List Opt) : Decidable (Daemonizes opts) :=
  inferInstanceAs (Decidable (∃ o ∈ opts, o.1 = ascii "-d"))

/-- The file that was chosen last. -/
def chosen (opts : List Opt) : Option Bytes :=
  (opts.filter (pidfileOptions.contains ·.1)).getLast?.map (·.2)

/-- The pid file of the process. -/
def pidfileOf (opts : List Opt) : Bytes := (chosen opts).getD agentPidfile

def DaemonEnv.Succeed (env : DaemonEnv) (cs : List Call) : Prop := ∀ c ∈ cs, env.call c = .ok ()

/-- The agent is created. -/
def DaemonEnv.Creates (env : DaemonEnv) : Prop := env.Succeed (.init :: create)

/-- The process is the parent in `_daemonize`. -/
def DaemonEnv.IsParent (env : DaemonEnv) : Prop :=
  env.ppid ≠ 1 ∧ ∃ pid, env.fork = .ok pid ∧ pid ≠ 0

/-- The process is the child, and nothing fails in it. -/
def DaemonEnv.Detaches (env : DaemonEnv) : Prop :=
  env.ppid ≠ 1 ∧ env.fork = .ok 0 ∧ env.Succeed detach

/-- The process leaves by `os._exit`. -/
def DaemonEnv.Leaves (env : DaemonEnv) (argv0 : Bytes) :
    Except GetoptError (List Opt × List Bytes) → Prop
  | .error err => env.call (.print (tryHelp argv0 err)) = .ok ()
  | .ok (opts, _) =>
    (AsksHelp opts ∧ env.call (.print (usage argv0)) = .ok ()) ∨
      (¬ AsksHelp opts ∧ Daemonizes opts ∧ env.Creates ∧ env.IsParent)

/-- Nothing fails up to where the pid file is opened. -/
def DaemonEnv.Writes (env : DaemonEnv) : Except GetoptError (List Opt × List Bytes) → Prop
  | .error _ => False
  | .ok (opts, _) =>
    ¬ AsksHelp opts ∧ env.Creates ∧ (Daemonizes opts → env.Detaches) ∧
      env.call (.open (pidfileOf opts)) = .ok ()

/-- The process was started with a file of its own choice. -/
def Chooses : Except GetoptError (List Opt × List Bytes) → Prop
  | .error _ => False
  | .ok (opts, _) => ∃ o ∈ opts, o.1 ∈ pidfileOptions

/-- The directory the pid file is written from. -/
def cwdOf (daemon : Bool) (cwd : Bytes) : Bytes := if daemon then ascii "/" else cwd

section Property

variable {File : Type} (file : Bytes → Bytes → File)

/-- The pid file is the one that is removed. -/
def IsDefault (cwd : Bytes) : Except GetoptError (List Opt × List Bytes) → Prop
  | .error _ => False
  | .ok (opts, _) =>
    file (cwdOf (Daemonizes opts) cwd) (pidfileOf opts) =
      file (cwdOf (Daemonizes opts) cwd) agentPidfile

/-- The process removes no pid file but its own, and does so if it was to choose it. -/
structure OwnPidfile (parsed : Except GetoptError (List Opt × List Bytes))
    (s : ProcessState File) : Prop where
  removed : ∀ f ∈ s.removed, f ∈ s.written
  chosen : Chooses parsed → ∀ f ∈ s.written, f ∈ s.removed

/-- The process leaves by `os._exit`; or the default file is removed, and it is what the process has
written; or it is not removed, and the process has not written a file it was to choose. -/
def DaemonEnv.Safe (env : DaemonEnv) (cwd argv0 : Bytes)
    (parsed : Except GetoptError (List Opt × List Bytes)) : Prop :=
  env.Leaves argv0 parsed ∨
    (env.call (.unlink agentPidfile) = .ok () ∧ env.Writes parsed ∧ IsDefault file cwd parsed) ∨
    (env.call (.unlink agentPidfile) ≠ .ok () ∧ ¬ (Chooses parsed ∧ env.Writes parsed))

end Property

/-! ## Pieces of the program -/

section Pieces

variable {File : Type} {file : Bytes → Bytes → File} {env : DaemonEnv} {s t : ProcessState File}

/-- The pid files are the same. -/
def Same (s t : ProcessState File) : Prop := t.written = s.written ∧ t.removed = s.removed

theorem run_call_ok {c : Call} (h : env.call c = .ok ()) :
    (call c).run (env.handle file) s = (.ok (), s.after file c) := by
  rw [call, run_bind_ok (run_perform ..)]
  simp [DaemonEnv.handle, h, Except.mapError, Except.isOk, Except.toBool]

theorem run_call_error {c : Call} {e : PyExn} (h : env.call c = .error e) :
    (call c).run (env.handle file) s = (.error (.exn e), s) := by
  rw [call, run_bind_ok (run_perform ..)]
  simp [DaemonEnv.handle, h, Except.mapError, Except.isOk, Except.toBool]

theorem run_calls_ok {cs : List Call} (h : env.Succeed cs) :
    (calls cs).run (env.handle file) s = (.ok (), cs.foldl (·.after file) s) := by
  induction cs generalizing s with
  | nil => rfl
  | cons c cs ih =>
    obtain ⟨hc, hcs⟩ := List.forall_mem_cons.mp h
    rw [calls, run_bind_ok (run_call_ok hc)]
    exact ih hcs

/-- A call that neither writes nor removes a pid file. -/
def Call.Harmless : Call → Prop
  | .open _ | .unlink _ => False
  | _ => True

theorem Call.Harmless.same {c : Call} (h : c.Harmless) : Same s (s.after file c) := by
  cases c with
  | «open» path | unlink path => cases h
  | _ => exact ⟨rfl, rfl⟩

theorem Same.refl (s : ProcessState File) : Same s s := ⟨rfl, rfl⟩

theorem Same.trans {r : ProcessState File} (h : Same r s) (h' : Same s t) : Same r t :=
  ⟨h'.1.trans h.1, h'.2.trans h.2⟩

theorem same_foldl {cs : List Call} (h : ∀ c ∈ cs, c.Harmless) :
    Same s (cs.foldl (·.after file) s) := by
  induction cs generalizing s with
  | nil => exact .refl s
  | cons c cs ih =>
    obtain ⟨hc, hcs⟩ := List.forall_mem_cons.mp h
    exact hc.same.trans (ih hcs)

/-- Calls of which one fails: those before it have been performed. -/
theorem exists_run_calls_error (file : Bytes → Bytes → File) (s : ProcessState File)
    {cs : List Call} (hfail : ¬ env.Succeed cs) :
    ∃ e done, done <+: cs ∧
      (calls cs).run (env.handle file) s = (.error (.exn e), done.foldl (·.after file) s) := by
  induction cs generalizing s with
  | nil => exact absurd nofun hfail
  | cons c cs ih =>
    rw [calls]
    cases hcall : env.call c with
    | error e => exact ⟨e, [], List.nil_prefix, run_bind_error (run_call_error hcall)⟩
    | ok =>
      have hfail' : ¬ env.Succeed cs := fun hsucceed ↦
        hfail (List.forall_mem_cons.mpr ⟨hcall, hsucceed⟩)
      obtain ⟨e, done, hdone, hrun⟩ := ih (s.after file c) hfail'
      exact ⟨e, c :: done, List.cons_prefix_cons.mpr ⟨rfl, hdone⟩,
        (run_bind_ok (run_call_ok hcall)).trans hrun⟩

theorem foldl_idle {cs : List Call} (h : ∀ c ∈ cs, s.after file c = s) :
    cs.foldl (·.after file) s = s := by
  induction cs with
  | nil => rfl
  | cons c cs ih =>
    obtain ⟨hc, hcs⟩ := List.forall_mem_cons.mp h
    rw [List.foldl_cons, hc, ih hcs]

/-- Calls that change nothing. -/
theorem exists_run_calls_idle (env : DaemonEnv) {cs : List Call}
    (h : ∀ c ∈ cs, s.after file c = s) :
    ∃ out, (calls cs).run (env.handle file) s = (out, s) ∧
      (out = .ok () ∨ ∃ e, out = .error (.exn e)) := by
  by_cases hsucceed : env.Succeed cs
  · exact ⟨.ok (), by rw [run_calls_ok hsucceed, foldl_idle h], .inl rfl⟩
  · obtain ⟨e, done, hdone, hrun⟩ := exists_run_calls_error file s hsucceed
    rw [foldl_idle fun c hc ↦ h c (hdone.subset hc)] at hrun
    exact ⟨_, hrun, .inr ⟨e, rfl⟩⟩

/-- What comes of a piece that is to write `pidfile`, from the directory `cwd`. -/
inductive Fate (file : Bytes → Bytes → File) (s : ProcessState File) (cwd pidfile : Bytes)
    (writes leaves : Prop) : Except Raised Unit × ProcessState File → Prop
  | wrote {out : Except Raised Unit} {t : ProcessState File} (hwrites : writes)
      (hout : out = .ok () ∨ ∃ e, out = .error (.exn e))
      (hwritten : t.written = s.written ++ [file cwd pidfile]) (hremoved : t.removed = s.removed)
      (hcwd : t.cwd = cwd) : Fate file s cwd pidfile writes leaves (out, t)
  | left {status : ℕ} {t : ProcessState File} (hleaves : leaves) (hsame : Same s t) :
      Fate file s cwd pidfile writes leaves (.error (.exit status), t)
  | failed {e : PyExn} {t : ProcessState File} (hwrites : ¬ writes) (hleaves : ¬ leaves)
      (hsame : Same s t) : Fate file s cwd pidfile writes leaves (.error (.exn e), t)

variable {cwd pidfile : Bytes} {writes leaves writes' leaves' : Prop}
variable {out : Except Raised Unit × ProcessState File}

theorem Fate.of_same (h : Fate file t cwd pidfile writes leaves out) (hsame : Same s t)
    (hwrites : writes ↔ writes') (hleaves : leaves ↔ leaves') :
    Fate file s cwd pidfile writes' leaves' out := by
  cases h with
  | wrote hw hout hwritten hremoved hcwd =>
    exact .wrote (hwrites.mp hw) hout (hsame.1 ▸ hwritten) (hremoved.trans hsame.2) hcwd
  | left hl ht => exact .left (hleaves.mp hl) (hsame.trans ht)
  | failed hw hl ht =>
    exact .failed (fun h ↦ hw (hwrites.mpr h)) (fun h ↦ hl (hleaves.mpr h)) (hsame.trans ht)

/-- Once the file is open, it is the pid file of the process, whatever fails. -/
theorem fate_runWithPidfile (s : ProcessState File) (pidfile : Bytes) :
    Fate file s s.cwd pidfile (env.call (.open pidfile) = .ok ()) False
      ((runWithPidfile pidfile).run (env.handle file) s) := by
  rw [runWithPidfile]
  cases hopen : env.call (.open pidfile) with
  | error e =>
    rw [run_bind_error (run_call_error hopen)]
    exact .failed nofun nofun (.refl s)
  | ok =>
    have hpid : (perform DaemonAct.getpid : DaemonM ℕ).run (env.handle file)
        (s.after file (.open pidfile)) = (.ok env.pid, s.after file (.open pidfile)) := rfl
    rw [run_bind_ok (run_call_ok hopen), run_bind_ok hpid]
    have hidle : ∀ c ∈ [.write (strNat env.pid ++ ascii "\n"), .close, .chmod pidfile 0o644,
        .registerSignalHandler, .runAgent],
        (s.after file (.open pidfile)).after file c = s.after file (.open pidfile) := by
      simp [ProcessState.after]
    obtain ⟨out, hrun, rfl | ⟨e, rfl⟩⟩ := exists_run_calls_idle env hidle
    · rw [run_bind_ok hrun]
      exact .wrote rfl (.inl rfl) rfl rfl rfl
    · rw [run_bind_error hrun]
      exact .wrote rfl (.inr ⟨e, rfl⟩) rfl rfl rfl

theorem run_daemonize (file : Bytes → Bytes → File) (env : DaemonEnv) (s : ProcessState File) :
    daemonize.run (env.handle file) s =
    if env.ppid = 1 then (.error (.exn (.other 2)), s)
    else match env.fork with
      | .error e => (.error (.exn e), s)
      | .ok pid => if pid = 0 then (calls detach).run (env.handle file) s
        else (.error (.exit 0), s) := by
  have hppid : (perform DaemonAct.getppid : DaemonM ℕ).run (env.handle file) s =
      (.ok env.ppid, s) := rfl
  have hfork : (perform DaemonAct.fork : DaemonM (Except PyExn ℕ)).run (env.handle file) s =
      (.ok env.fork, s) := rfl
  rw [daemonize, run_bind_ok hppid]
  split
  · rfl
  · rw [run_bind_ok hfork]
    cases env.fork with
    | error e => rfl
    | ok pid =>
      exact apply_ite (fun p : DaemonM Unit ↦ p.run (env.handle file) s) ..

/-- The child of `_daemonize` goes on in another directory, with `k`. -/
theorem fate_detach {k : DaemonM Unit} (hppid : env.ppid ≠ 1) (hfork : env.fork = .ok 0)
    (h : ∀ t : ProcessState File,
      Fate file t t.cwd pidfile writes False (k.run (env.handle file) t)) :
    Fate file s (ascii "/") pidfile (env.Detaches ∧ writes) env.IsParent
      ((calls detach >>= fun _ ↦ k).run (env.handle file) s) := by
  have hparent : ¬ env.IsParent := by
    rintro ⟨-, pid, hpid, hne⟩
    exact hne (Except.ok.inj (hpid.symm.trans hfork))
  by_cases hdetach : env.Succeed detach
  · have hdetaches : env.Detaches := ⟨hppid, hfork, hdetach⟩
    rw [run_bind_ok (run_calls_ok hdetach)]
    exact (h (detach.foldl (·.after file) s)).of_same ⟨rfl, rfl⟩ (and_iff_right hdetaches).symm
      (iff_of_false id hparent)
  · obtain ⟨e, done, hdone, hrun⟩ := exists_run_calls_error file s hdetach
    have hharmless : ∀ c ∈ done, c.Harmless := by
      intro c hc
      have hmem : c ∈ detach := hdone.subset hc
      revert hmem
      simp only [detach, List.mem_cons, List.not_mem_nil, or_false]
      rintro (rfl | rfl | rfl | rfl | rfl | rfl) <;> trivial
    rw [run_bind_error hrun]
    exact .failed (fun h ↦ hdetach h.1.2.2) hparent (same_foldl hharmless)

/-- `_daemonize`, in front of a piece that writes the pid file. -/
theorem fate_daemonize {k : DaemonM Unit}
    (h : ∀ t : ProcessState File,
      Fate file t t.cwd pidfile writes False (k.run (env.handle file) t)) :
    Fate file s (ascii "/") pidfile (env.Detaches ∧ writes) env.IsParent
      ((daemonize >>= fun _ ↦ k).run (env.handle file) s) := by
  have hrun := run_daemonize file env s
  split at hrun
  case isTrue hppid =>
    rw [run_bind_error hrun]
    exact .failed (fun h ↦ h.1.1 hppid) (fun h ↦ h.1 hppid) (.refl s)
  case isFalse hppid =>
    cases hfork : env.fork with
    | error e =>
      rw [hfork] at hrun
      rw [run_bind_error hrun]
      exact .failed (fun h ↦ by cases hfork.symm.trans h.1.2.1)
        (fun ⟨_, pid, hpid, _⟩ ↦ by cases hfork.symm.trans hpid) (.refl s)
    | ok pid =>
      rw [hfork] at hrun
      by_cases hpid : pid = 0
      · subst hpid
        have hchild : daemonize.run (env.handle file) s =
            (calls detach).run (env.handle file) s := hrun.trans (if_pos rfl)
        rw [run_bind, hchild, ← run_bind]
        exact fate_detach hppid hfork h
      · rw [run_bind_error (hrun.trans (if_neg hpid))]
        exact .left ⟨hppid, pid, hfork, hpid⟩ (.refl s)

theorem fate_run (daemon : Bool) (pidfile : Bytes) :
    Fate file s (cwdOf daemon s.cwd) pidfile
      (env.Succeed create ∧ (daemon = true → env.Detaches) ∧
        env.call (.open pidfile) = .ok ())
      (env.Succeed create ∧ daemon = true ∧ env.IsParent)
      ((run daemon pidfile).run (env.handle file) s) := by
  have hlog : (log .starting).run (env.handle file) s = (.ok (), s) := rfl
  rw [run, run_bind_ok hlog]
  by_cases hcreated : env.Succeed create
  · rw [run_bind_ok (run_calls_ok hcreated)]
    cases daemon with
    | false =>
      exact (fate_runWithPidfile s pidfile).of_same (.refl s) (by simp [hcreated]) (by simp)
    | true =>
      exact (fate_daemonize fun t ↦ fate_runWithPidfile t pidfile).of_same (.refl s)
        (by simp [hcreated]) (by simp [hcreated])
  · obtain ⟨e, done, hdone, hrun⟩ := exists_run_calls_error file s hcreated
    have hidle : ∀ c ∈ done, s.after file c = s := by
      intro c hc
      have hmem : c ∈ create := hdone.subset hc
      revert hmem
      simp only [create, List.mem_cons, List.not_mem_nil, or_false]
      rintro (rfl | rfl) <;> rfl
    rw [run_bind_error hrun, foldl_idle hidle]
    exact .failed (fun h ↦ hcreated h.1) (fun h ↦ hcreated h.1) (.refl s)

end Pieces

/-! ## The options -/

section Options

variable {o : Opt} {opts : List Opt}

theorem asksHelp_cons_iff : AsksHelp (o :: opts) ↔ o.1 ∈ helpOptions ∨ AsksHelp opts := by
  simp [AsksHelp]

theorem daemonizes_cons_iff : Daemonizes (o :: opts) ↔ o.1 = ascii "-d" ∨ Daemonizes opts := by
  simp [Daemonizes]

theorem chosen_cons_of_mem (h : pidfileOptions.contains o.1 = true) (pidfile : Bytes) :
    (chosen (o :: opts)).getD pidfile = (chosen opts).getD o.2 := by
  rw [chosen, List.filter_cons_of_pos (by exact h), List.getLast?_cons, chosen]
  cases (opts.filter (pidfileOptions.contains ·.1)).getLast? <;> rfl

theorem chosen_cons_of_notMem (h : ¬ pidfileOptions.contains o.1 = true) :
    chosen (o :: opts) = chosen opts := by
  rw [chosen, List.filter_cons_of_neg (by exact h), chosen]

/-- The first option that asks for help ends the loop. -/
theorem readOptions_of_asksHelp (h : AsksHelp opts) (argv0 pidfile : Bytes) (daemon : Bool) :
    readOptions argv0 opts pidfile daemon =
      call (.print (usage argv0)) >>= fun _ ↦ raise (.exit 2) := by
  induction opts generalizing pidfile daemon with
  | nil => exact absurd h nofun
  | cons o opts ih =>
    rw [readOptions]
    by_cases ho : o.1 ∈ helpOptions
    · rw [if_pos (List.contains_iff_mem.mpr ho)]
    · have hopts : AsksHelp opts := (asksHelp_cons_iff.mp h).resolve_left ho
      rw [if_neg (mt List.contains_iff_mem.mp ho), ih hopts, ih hopts, ih hopts, ite_self, ite_self]

/-- Of the options there are, `opt in ("-d")` is true of `-d` alone. -/
theorem isInfix_iff {shortopts name : Bytes} {longopts : List Bytes}
    (h : Declared shortopts longopts name) : name <:+: ascii "-d" ↔ name = ascii "-d" := by
  refine ⟨fun hname ↦ ?_, fun hname ↦ hname ▸ List.infix_rfl⟩
  rcases h with ⟨c, -, -, rfl⟩ | ⟨longopt, -, opt, -, rfl⟩
  · exact hname.eq_of_length rfl
  · have hlen : ([dash, dash] ++ opt).length ≤ 2 := hname.length_le
    have hopt : opt = [] := by simpa using hlen
    subst hopt
    exact hname.eq_of_length rfl

/-- Options without a call for help. -/
theorem readOptions_eq {shortopts : Bytes} {longopts : List Bytes} (hhelp : ¬ AsksHelp opts)
    (hopts : ∀ o ∈ opts, Declared shortopts longopts o.1) (argv0 pidfile : Bytes) (daemon : Bool) :
    readOptions argv0 opts pidfile daemon =
      pure ((chosen opts).getD pidfile, daemon || decide (Daemonizes opts)) := by
  induction opts generalizing pidfile daemon with
  | nil => simp [readOptions, chosen, Daemonizes]
  | cons o opts ih =>
    obtain ⟨hdeclared, hopts⟩ := List.forall_mem_cons.mp hopts
    rw [asksHelp_cons_iff, not_or] at hhelp
    rw [readOptions, if_neg (mt List.contains_iff_mem.mp hhelp.1)]
    by_cases hpidfile : pidfileOptions.contains o.1 = true
    · have hne : o.1 ≠ ascii "-d" := by
        rintro heq
        rw [heq] at hpidfile
        revert hpidfile
        decide
      rw [if_pos hpidfile, ih hhelp.2 hopts, chosen_cons_of_mem hpidfile]
      simp [daemonizes_cons_iff, hne]
    · rw [if_neg hpidfile, chosen_cons_of_notMem hpidfile, ih hhelp.2 hopts, ih hhelp.2 hopts]
      by_cases hd : o.1 = ascii "-d"
      · simp [daemonizes_cons_iff, hd]
      · simp [isInfix_iff hdeclared, daemonizes_cons_iff, hd]

end Options

/-! ## The program -/

section Program

variable {File : Type} {file : Bytes → Bytes → File} {env : DaemonEnv} {s t : ProcessState File}
variable {opts : List Opt} {rest : List Bytes}

theorem fate_start_of_asksHelp (hhelp : AsksHelp opts) (argv0 cwd pidfile : Bytes) :
    Fate file s cwd pidfile (env.Writes (.ok (opts, rest))) (env.Leaves argv0 (.ok (opts, rest)))
      ((start argv0 (.ok (opts, rest))).run (env.handle file) s) := by
  have hwrites : ¬ env.Writes (.ok (opts, rest)) := fun h ↦ h.1 hhelp
  show Fate _ _ _ _ _ _ ((readOptions argv0 opts agentPidfile false >>= _).run _ s)
  rw [readOptions_of_asksHelp hhelp]
  cases hprint : env.call (.print (usage argv0)) with
  | error e =>
    have hleaves : ¬ env.Leaves argv0 (.ok (opts, rest)) := by
      rintro (⟨-, h⟩ | ⟨h, -⟩)
      · cases hprint.symm.trans h
      · exact h hhelp
    rw [run_bind_error (run_bind_error (run_call_error hprint))]
    exact .failed hwrites hleaves (.refl s)
  | ok =>
    rw [run_bind_error (run_bind_ok (run_call_ok hprint))]
    exact .left (.inl ⟨hhelp, hprint⟩) (.refl s)

theorem creates_iff : env.Creates ↔ env.call .init = .ok () ∧ env.Succeed create :=
  List.forall_mem_cons

/-- The inner `try` block, for a command line that `getopt` accepts. -/
theorem fate_start
    (hopts : ∀ o ∈ opts, Declared (ascii "?hp:d") [ascii "help", ascii "pidfile="] o.1)
    (argv0 : Bytes) :
    Fate file s (cwdOf (decide (Daemonizes opts)) s.cwd) (pidfileOf opts)
      (env.Writes (.ok (opts, rest))) (env.Leaves argv0 (.ok (opts, rest)))
      ((start argv0 (.ok (opts, rest))).run (env.handle file) s) := by
  by_cases hhelp : AsksHelp opts
  · exact fate_start_of_asksHelp hhelp ..
  · have hstart : start argv0 (.ok (opts, rest)) =
        call .init >>= fun _ ↦ run (decide (Daemonizes opts)) (pidfileOf opts) := by
      show (readOptions argv0 opts agentPidfile false >>= _) = _
      rw [readOptions_eq hhelp hopts]
      rfl
    rw [hstart]
    cases hinit : env.call .init with
    | error e =>
      have hcreates : ¬ env.Creates := fun h ↦ by cases hinit.symm.trans (creates_iff.mp h).1
      have hleaves : ¬ env.Leaves argv0 (.ok (opts, rest)) := by
        rintro (⟨h, -⟩ | ⟨-, -, h, -⟩)
        · exact hhelp h
        · exact hcreates h
      rw [run_bind_error (run_call_error hinit)]
      exact .failed (fun h ↦ hcreates h.2.1) hleaves (.refl s)
    | ok =>
      rw [run_bind_ok (run_call_ok hinit)]
      refine (fate_run _ _).of_same (.refl s) ?_ ?_
      · simp [DaemonEnv.Writes, creates_iff, hinit, hhelp]
      · simp [DaemonEnv.Leaves, creates_iff, hinit, hhelp, and_left_comm]

/-- What `finally` does. -/
def finish (file : Bytes → Bytes → File) (env : DaemonEnv) (s : ProcessState File) :
    ProcessState File :=
  if (env.call (.unlink agentPidfile)).isOk then s.after file (.unlink agentPidfile) else s

theorem run_cleanUp : cleanUp.run (env.handle file) s = (.ok (), finish file env s) := by
  rw [cleanUp, finish]
  cases hunlink : env.call (.unlink agentPidfile) with
  | error e =>
    have hcall : (call (.unlink agentPidfile)).run (env.handle file) s = (.error (.exn e), s) :=
      run_call_error hunlink
    exact run_tryCatch_error (e := Raised.exn e) trivial hcall
  | ok => exact run_tryCatch_ok (run_call_ok hunlink)

section Protect

variable {p : DaemonM Unit} {status : ℕ} (argv0 : Bytes)

theorem run_protect_exit (h : p.run (env.handle file) s = (.error (.exit status), t)) :
    ((protect argv0 p).run (env.handle file) s).2 = t := by
  rw [protect, run_tryFinally_exit id (run_tryCatch_exit id h)]

/-- What has failed comes to `finally`, and so does what has not. -/
theorem run_protect {out : Except Raised Unit} (h : p.run (env.handle file) s = (out, t))
    (hout : out = .ok () ∨ ∃ e, out = .error (.exn e)) :
    ((protect argv0 p).run (env.handle file) s).2 = finish file env t := by
  rw [protect]
  rcases hout with rfl | ⟨e, rfl⟩
  · rw [run_tryFinally_ok (run_tryCatch_ok h) run_cleanUp]
  · have herror : (tryCatch Raised.IsException p (handler argv0)).run (env.handle file) s =
        (.error (.systemExit 1), t) := run_tryCatch_error trivial h
    rw [run_tryFinally_error trivial herror run_cleanUp]

/-- An option that `getopt` does not accept. -/
theorem run_protect_getoptError {err : GetoptError}
    (h : p.run (env.handle file) s = (.error (.getoptError err), t)) :
    ((protect argv0 p).run (env.handle file) s).2 =
      if (env.call (.print (tryHelp argv0 err))).isOk then t else finish file env t := by
  have hhandler : (tryCatch Raised.IsException p (handler argv0)).run (env.handle file) s =
      (call (.print (tryHelp argv0 err)) >>= fun _ ↦ raise (.exit 2)).run (env.handle file) t :=
    run_tryCatch_error trivial h
  rw [protect]
  cases hprint : env.call (.print (tryHelp argv0 err)) with
  | error e =>
    rw [run_tryFinally_error trivial (hhandler.trans (run_bind_error (run_call_error hprint)))
      run_cleanUp]
    rfl
  | ok =>
    rw [run_tryFinally_exit id (hhandler.trans (run_bind_ok (run_call_ok hprint)))]
    rfl

end Protect

/-- A process that writes the pid file does not leave by `os._exit`. -/
theorem DaemonEnv.Writes.not_leaves {parsed : Except GetoptError (List Opt × List Bytes)}
    (h : env.Writes parsed) (argv0 : Bytes) : ¬ env.Leaves argv0 parsed := by
  rcases parsed with err | ⟨opts, rest⟩
  · exact h.elim
  · obtain ⟨hhelp, -, hdetaches, -⟩ := h
    rintro (⟨hasks, -⟩ | ⟨-, hdaemon, -, -, pid, hpid, hne⟩)
    · exact hhelp hasks
    · exact hne (Except.ok.inj (hpid.symm.trans (hdetaches hdaemon).2.1))

end Program

/-! ## The end -/

section Exit

variable {File : Type} (file : Bytes → Bytes → File) (env : DaemonEnv)

theorem ownPidfile_of_nil (parsed : Except GetoptError (List Opt × List Bytes))
    {s : ProcessState File} (hwritten : s.written = []) (hremoved : s.removed = []) :
    OwnPidfile parsed s := by
  refine ⟨?_, fun _ ↦ ?_⟩
  · rw [hremoved]
    exact nofun
  · rw [hwritten]
    exact nofun

variable {file env} {t : ProcessState File} {cwd argv0 : Bytes}

/-- A process that has written no pid file comes to `finally`. -/
theorem ownPidfile_finish_of_not_writes {parsed : Except GetoptError (List Opt × List Bytes)}
    (hwrites : ¬ env.Writes parsed) (hleaves : ¬ env.Leaves argv0 parsed)
    (hwritten : t.written = []) (hremoved : t.removed = []) :
    OwnPidfile parsed (finish file env t) ↔ env.Safe file cwd argv0 parsed := by
  rw [finish, DaemonEnv.Safe]
  cases hunlink : env.call (.unlink agentPidfile) with
  | error e =>
    refine iff_of_true (ownPidfile_of_nil parsed hwritten hremoved) (.inr (.inr ⟨nofun, ?_⟩))
    exact fun h ↦ hwrites h.2
  | ok =>
    refine iff_of_false (fun h ↦ ?_) ?_
    · have hmem : file t.cwd agentPidfile ∈ t.written :=
        h.removed _ (List.mem_append_right _ (List.mem_singleton_self _))
      rw [hwritten] at hmem
      cases hmem
    · rintro (h | ⟨-, h, -⟩ | ⟨h, -⟩)
      · exact hleaves h
      · exact hwrites h
      · exact h rfl

/-- A process that has written its pid file does. -/
theorem ownPidfile_finish_of_writes {opts : List Opt} {rest : List Bytes}
    (hwrites : env.Writes (.ok (opts, rest)))
    (hwritten : t.written = [file (cwdOf (Daemonizes opts) cwd) (pidfileOf opts)])
    (hremoved : t.removed = []) (hcwd : t.cwd = cwdOf (Daemonizes opts) cwd) :
    OwnPidfile (.ok (opts, rest)) (finish file env t) ↔
      env.Safe file cwd argv0 (.ok (opts, rest)) := by
  have hleaves : ¬ env.Leaves argv0 (.ok (opts, rest)) := hwrites.not_leaves argv0
  rw [finish, DaemonEnv.Safe, or_iff_right hleaves]
  cases hunlink : env.call (.unlink agentPidfile) with
  | error e =>
    show OwnPidfile _ t ↔ _
    constructor
    · intro h
      refine .inr ⟨nofun, fun ⟨hchooses, _⟩ ↦ ?_⟩
      have hmem := h.chosen hchooses _ (hwritten ▸ List.mem_singleton_self _)
      rw [hremoved] at hmem
      cases hmem
    · rintro (⟨h, -⟩ | ⟨-, h⟩)
      · cases h
      · refine ⟨?_, fun hchooses ↦ absurd ⟨hchooses, hwrites⟩ h⟩
        rw [hremoved]
        exact nofun
  | ok =>
    show OwnPidfile _ (t.after file (.unlink agentPidfile)) ↔ _
    constructor
    · intro h
      have hmem : file t.cwd agentPidfile ∈ t.written :=
        h.removed _ (List.mem_append_right _ (List.mem_singleton_self _))
      rw [hwritten, hcwd, List.mem_singleton] at hmem
      exact .inl ⟨rfl, hwrites, hmem.symm⟩
    · rintro (⟨-, -, hsame⟩ | ⟨h, -⟩)
      · have heq : (t.after file (.unlink agentPidfile)).removed =
            (t.after file (.unlink agentPidfile)).written := by
          show t.removed ++ [file t.cwd agentPidfile] = t.written
          rw [hremoved, hwritten, hcwd, ← hsame, List.nil_append]
        exact ⟨fun f hf ↦ by rwa [heq] at hf, fun _ f hf ↦ by rwa [heq]⟩
      · exact absurd rfl h

/-- **The exact condition** for a process to remove its own pid file and no other. -/
theorem ownPidfile_iff (file : Bytes → Bytes → File) (env : DaemonEnv) (cwd argv0 : Bytes)
    (args : List Bytes) :
    OwnPidfile (parse args) (exit file env cwd argv0 args) ↔
      env.Safe file cwd argv0 (parse args) := by
  rw [exit, main]
  cases hparse : parse args with
  | error err =>
    rw [run_protect_getoptError argv0 rfl]
    cases hprint : env.call (.print (tryHelp argv0 err)) with
    | ok => exact iff_of_true (ownPidfile_of_nil _ rfl rfl) (.inl hprint)
    | error e =>
      have hleaves : ¬ env.Leaves argv0 (.error err) := fun h ↦ by cases hprint.symm.trans h
      exact ownPidfile_finish_of_not_writes id hleaves rfl rfl
  | ok parsed =>
    obtain ⟨opts, rest⟩ := parsed
    have hfate : Fate file ⟨cwd, [], []⟩ (cwdOf (Daemonizes opts) cwd) (pidfileOf opts)
        (env.Writes (.ok (opts, rest))) (env.Leaves argv0 (.ok (opts, rest)))
        ((start argv0 (.ok (opts, rest))).run (env.handle file) ⟨cwd, [], []⟩) :=
      fate_start (declared_of_getopt hparse) argv0
    generalize hrun : (start argv0 (.ok (opts, rest))).run (env.handle file) ⟨cwd, [], []⟩ = out
      at hfate
    cases hfate with
    | wrote hwrites hout hwritten hremoved hcwd =>
      rw [run_protect argv0 hrun hout]
      exact ownPidfile_finish_of_writes hwrites hwritten hremoved hcwd
    | left hleaves hsame =>
      rw [run_protect_exit argv0 hrun]
      exact iff_of_true (ownPidfile_of_nil _ hsame.1 hsame.2) (.inl hleaves)
    | failed hwrites hleaves hsame =>
      rw [run_protect argv0 hrun (.inr ⟨_, rfl⟩)]
      exact ownPidfile_finish_of_not_writes hwrites hleaves hsame.1 hsame.2

end Exit

/-- A port that is already open. -/
def portInUse : DaemonEnv where
  call
    | .newAgent => .error .osError
    | _ => .ok ()
  ppid := 2
  pid := 3
  fork := .ok 0

/-- An agent that cannot be created removes the pid file of the one that runs. -/
theorem not_ownPidfile : ¬ OwnPidfile (parse []) (exit (fun _ path ↦ path) portInUse (ascii "/root")
    (ascii "ovirt-guest-agent.py") []) := by
  have hparse : parse [] = .ok ([], []) := by
    rw [parse, getopt, getoptLoop]
  have hexit : (exit (fun _ path ↦ path) portInUse (ascii "/root") (ascii "ovirt-guest-agent.py")
      []) = ⟨ascii "/root", [], [agentPidfile]⟩ := by
    rw [exit, main, hparse]
    rfl
  rw [hexit]
  intro h
  have hmem : agentPidfile ∈ ([] : List Bytes) := h.removed _ (List.mem_singleton_self _)
  cases hmem

end GuestAgent.Daemon
