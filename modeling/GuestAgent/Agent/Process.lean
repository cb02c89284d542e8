import GuestAgent.Credentials.Quit
import Mathlib.Tactic.ByContra
import Mathlib.Tactic.SplitIfs

/-!
# The process of the agent

The Linux agent is a process of several threads.  The main thread starts the credentials server, the
listener and the worker, and waits for the worker.  The handler of `SIGTERM` runs in the main thread
too, wherever that is: it stops the server, waits until its thread has ended, and tells the worker
to stop.  When the main thread is through, the interpreter joins what is left of the threads that
`threading` knows about, the server, which it so tells to stop, and a credentials channel, and only
then does the process end.

The signal is delivered while the main thread runs Python code, and so not while it is in
`Thread.join`.  A second one is left out.

Here is what holds in every state of the process, what it takes for the process to be `Stopping`,
and what becomes of a stop the server has been told: `Told` as long as it has not lost it, and
`Stuck` from then on.
-/

set_option autoImplicit false

namespace GuestAgent

/-! ## The process -/

/-- Where the main thread is, in `LinuxVdsAgent.run` and behind it. -/
inductive MainPoint where
  /-- `self.cred_server.start()` -/
  | startServer
  /-- `thread.start_new_thread(self.doListen, ())` -/
  | startListener
  /-- `self._start_thread_joinable(self.doWork)` -/
  | startWorker
  /-- `self._join`, which waits for the event of the worker. -/
  | joinWorker
  /-- `run` has returned or raised, and the interpreter looks for threads to join. -/
  | shutdown
  /-- In `Thread.join` of the server. -/
  | joinServer
  /-- In `Thread.join` of a channel. -/
  | joinChannel
  | ended
  deriving DecidableEq, Repr

/-- It starts a thread. -/
def MainPoint.Starts (p : MainPoint) : Prop :=
  p = startServer ∨ p = startListener ∨ p = startWorker

/-- `LinuxVdsAgent.run` has been left. -/
def MainPoint.Leaving (p : MainPoint) : Prop :=
  p = shutdown ∨ p = joinServer ∨ p = joinChannel ∨ p = ended

/-- Where the handler of the signal is, in `LinuxVdsAgent.stop`. -/
inductive StopPoint where
  /-- It has not been called. -/
  | idle
  /-- `self._quit = True`, in `CredServer.join`. -/
  | setQuit
  /-- `threading.Thread.join(self)`, there. -/
  | joinServer
  /-- `self.wait_stop.set()` -/
  | setStop
  | done
  deriving DecidableEq, Repr

/-- Where `doWork` is. -/
inductive WorkPoint where
  | notStarted
  /-- The reports in front of the loop. -/
  | reports
  /-- `while not self.wait_stop.isSet()` -/
  | test
  /-- The body of the loop. -/
  | round
  /-- `self.sessionShutdown()` -/
  | shutdownReport
  /-- It has returned or raised, and the event is set. -/
  | ended
  deriving DecidableEq, Repr

structure AgentProcess where
  main : MainPoint
  handler : StopPoint
  server : CredServer
  serverStarted : Bool
  listening : Bool
  work : WorkPoint
  waitStop : Bool
  /-- The thread of a `CredChannel` is alive. -/
  channel : Bool
  deriving DecidableEq, Repr

/-- Whose turn the main thread waits for, if not its own. -/
inductive Helper where
  | main | server | worker | channel
  deriving DecidableEq, Repr

inductive StopEvent where
  /-- The main thread takes a step.  Where it starts a thread, that may fail; where it looks for
  threads to join, it may find one or the other first. -/
  | main (ok : Bool)
  /-- The credentials server takes a step. -/
  | server (ok : Bool)
  /-- The worker takes a step. -/
  | worker (ok : Bool)
  /-- `SIGTERM` -/
  | signal
  /-- The listener starts a channel for a login. -/
  | login
  | channelEnds
  deriving DecidableEq, Repr

namespace AgentProcess

/-- The process when the signal handler has been registered. -/
def start : AgentProcess where
  main := .startServer
  handler := .idle
  server := .start
  serverStarted := false
  listening := false
  work := .notStarted
  waitStop := false
  channel := false

variable (s : AgentProcess)

def ServerAlive : Prop := s.serverStarted = true ∧ s.server.run ≠ .ended

instance : Decidable s.ServerAlive := inferInstanceAs (Decidable (_ ∧ _))

/-- `self._quit = True` -/
def tellServer : AgentProcess := { s with server := { s.server with quit := true } }

/-- What the main thread waits for. -/
def awaits : Option Helper :=
  match s.handler with
  | .setQuit | .setStop => none
  | .joinServer => if s.ServerAlive then some .server else none
  | .idle | .done =>
    match s.main with
    | .joinWorker => if s.work = .ended then none else some .worker
    | .joinServer => if s.ServerAlive then some .server else none
    | .joinChannel => if s.channel then some .channel else none
    | _ => none

/-- The next step of `LinuxVdsAgent.run`, or of the interpreter. -/
def runStep (ok : Bool) : AgentProcess :=
  match s.main with
  | .startServer =>
    if ok then { s with main := .startListener, serverStarted := true }
    else { s with main := .shutdown }
  | .startListener =>
    if ok then { s with main := .startWorker, listening := true } else { s with main := .shutdown }
  | .startWorker =>
    if ok then { s with main := .joinWorker, work := .reports } else { s with main := .shutdown }
  | .joinWorker | .joinServer | .joinChannel => { s with main := .shutdown }
  | .shutdown =>
    if s.ServerAlive ∧ (ok = true ∨ s.channel = false) then
      { s.tellServer with main := .joinServer }
    else if s.channel then { s with main := .joinChannel }
    else { s with main := .ended }
  | .ended => s

/-- The next step of the main thread, where it need not wait. -/
def mainStep (ok : Bool) : AgentProcess :=
  match s.handler with
  | .setQuit => { s.tellServer with handler := .joinServer }
  | .joinServer =>
    if s.serverStarted then { s with handler := .setStop }
    -- the `RuntimeError` of `Thread.join`
    else { s with handler := .done, main := .shutdown }
  | .setStop => { s with handler := .done, waitStop := true }
  | .idle | .done => s.runStep ok

/-- The next step of `doWork`. -/
def workStep (ok : Bool) : WorkPoint :=
  match s.work with
  | .notStarted => .notStarted
  | .reports => if ok then .test else .ended
  | .test => if s.waitStop then .shutdownReport else .round
  | .round => if ok then .test else .shutdownReport
  | .shutdownReport | .ended => .ended

/-- The main thread runs Python code. -/
def Interruptible : Prop := s.main ≠ .joinServer ∧ s.main ≠ .joinChannel

instance : Decidable s.Interruptible := inferInstanceAs (Decidable (_ ∧ _))

def step (s : AgentProcess) (e : StopEvent) : AgentProcess :=
  if s.main = .ended then s
  else
    match e with
    | .main ok => if s.awaits = none then s.mainStep ok else s
    | .server ok => if s.serverStarted then { s with server := s.server.runStep ok } else s
    | .worker ok => { s with work := s.workStep ok }
    | .signal => if s.handler = .idle ∧ s.Interruptible then { s with handler := .setQuit } else s
    | .login => if s.listening then { s with channel := true } else s
    | .channelEnds => { s with channel := false }

/-! ## What may become of it -/

/-- The event brings it about that the process is to end: the signal, or a thread that cannot be
started, or an exception in `doWork`. -/
def Causes (s : AgentProcess) : StopEvent → Prop
  | .signal => True
  | .main ok => ok = false ∧ s.main.Starts
  | .worker ok => ok = false ∧ (s.work = .reports ∨ s.work = .round)
  | _ => False

/-- The server undoes the stop: it is in front of its own assignment with `_quit` set. -/
def Loses (s : AgentProcess) : StopEvent → Prop
  | .server _ => s.main ≠ .ended ∧ s.serverStarted = true ∧ s.server.run = .reset ∧
      s.server.quit = true
  | _ => False

/-- The server raises, where it can. -/
def ServerRaises (s : AgentProcess) : StopEvent → Prop
  | .server ok => s.main ≠ .ended ∧ ok = false ∧ s.serverStarted = true ∧
      (s.server.run = .connect ∨ s.server.run = .context ∨ s.server.run = .iteration ∨
        s.server.run = .sleep)
  | _ => False

/-- The process is to end. -/
def Stopping (s : AgentProcess) : Prop :=
  s.handler ≠ .idle ∨ s.main.Leaving ∨ s.work = .shutdownReport ∨ s.work = .ended

/-! ## What holds in every run -/

/-- The main thread is in `CredServer.join`, with `_quit` set. -/
def Joins (s : AgentProcess) : Prop := s.handler = .joinServer ∨ s.main = .joinServer

structure Inv (s : AgentProcess) : Prop where
  unstarted : s.main = .startServer → s.serverStarted = false
  fresh : s.main.Starts → s.work = .notStarted
  working : s.main = .joinWorker → s.work ≠ .notStarted
  /-- The signal does not interrupt the wait for the server. -/
  joining : s.main = .joinServer → s.handler = .idle ∨ s.handler = .done
  done : s.handler = .done → s.waitStop = true ∨ s.main.Leaving
  quit : s.server.quit = true → s.ServerAlive ∨ s.main = .startServer → s.Joins
  ended : s.main = .ended → s.channel = false ∧ ¬ s.ServerAlive

theorem inv_start : start.Inv where
  unstarted _ := rfl
  fresh _ := rfl
  working h := by cases h
  joining h := by cases h
  done h := by cases h
  quit h := by cases h
  ended h := by cases h

section Steps

variable {s : AgentProcess}

instance : DecidablePred MainPoint.Starts := fun _ ↦ inferInstanceAs (Decidable (_ ∨ _))

instance : DecidablePred MainPoint.Leaving := fun _ ↦ inferInstanceAs (Decidable (_ ∨ _))

/-- The process is there. -/
theorem step_of_ne (hended : s.main ≠ .ended) (e : StopEvent) : s.step e =
    match e with
    | .main ok => if s.awaits = none then s.mainStep ok else s
    | .server ok => if s.serverStarted then { s with server := s.server.runStep ok } else s
    | .worker ok => { s with work := s.workStep ok }
    | .signal => if s.handler = .idle ∧ s.Interruptible then { s with handler := .setQuit } else s
    | .login => if s.listening then { s with channel := true } else s
    | .channelEnds => { s with channel := false } := by
  rw [AgentProcess.step.eq_def, if_neg hended]

/-- Where the handler does not run. -/
theorem awaits_of_free (hfree : s.handler = .idle ∨ s.handler = .done) : s.awaits =
    match s.main with
    | .joinWorker => if s.work = .ended then none else some .worker
    | .joinServer => if s.ServerAlive then some .server else none
    | .joinChannel => if s.channel then some .channel else none
    | _ => none := by
  rcases hfree with hhandler | hhandler <;> rw [awaits, hhandler]

/-- Where it does. -/
theorem awaits_of_busy (hfree : ¬ (s.handler = .idle ∨ s.handler = .done)) :
    s.awaits = if s.handler = .joinServer ∧ s.ServerAlive then some .server else none := by
  cases hhandler : s.handler with
  | idle => exact absurd (.inl hhandler) hfree
  | done => exact absurd (.inr hhandler) hfree
  | setQuit | setStop =>
    rw [awaits, hhandler]
    exact (if_neg (not_and.mpr nofun)).symm
  | joinServer => simp only [awaits, hhandler, true_and]

/-- A server that nobody joins has not been told to stop. -/
theorem Inv.not_quit (h : s.Inv) (hhandler : s.handler ≠ .joinServer) (hmain : s.main ≠ .joinServer)
    (halive : s.ServerAlive ∨ s.main = .startServer) : s.server.quit ≠ true :=
  fun hquit ↦ (h.quit hquit halive).elim hhandler hmain

theorem not_starts_of_leaving {p : MainPoint} (h : p.Leaving) : ¬ p.Starts := by
  rcases h with rfl | rfl | rfl | rfl <;> decide

/-- Behind `run`. -/
theorem inv_of_leaving (hmain : s.main.Leaving)
    (joining : s.main = .joinServer → s.handler = .idle ∨ s.handler = .done)
    (quit : s.server.quit = true → s.ServerAlive → s.Joins)
    (ended : s.main = .ended → s.channel = false ∧ ¬ s.ServerAlive) : s.Inv where
  unstarted h := absurd (.inl h) (not_starts_of_leaving hmain)
  fresh h := absurd h (not_starts_of_leaving hmain)
  working h := by
    rcases hmain with hmain | hmain | hmain | hmain <;> cases hmain.symm.trans h
  joining := joining
  done _ := .inr hmain
  quit hq halive := quit hq (halive.resolve_right fun h ↦ not_starts_of_leaving hmain (.inl h))
  ended := ended

/-- `run` is left. -/
theorem inv_leave (hquit : s.ServerAlive → s.server.quit ≠ true) :
    Inv { s with main := .shutdown } :=
  inv_of_leaving (.inl rfl) nofun (fun hq halive ↦ absurd hq (hquit halive)) nofun

/-- A thread is started. -/
theorem Inv.started (h : s.Inv) (hfree : s.handler ≠ .joinServer) (hstarts : s.main.Starts)
    {main : MainPoint} {serverStarted listening : Bool} {work : WorkPoint}
    (hmain : main = .startListener ∨ main = .startWorker ∨ main = .joinWorker)
    (hserver : serverStarted = true → s.serverStarted = true ∨ s.main = .startServer)
    (hwork : main.Starts ∧ work = .notStarted ∨ main = .joinWorker ∧ work ≠ .notStarted) :
    Inv { s with
      main := main, serverStarted := serverStarted, listening := listening, work := work } where
  unstarted := by
    rintro rfl
    rcases hmain with hmain | hmain | hmain <;> cases hmain
  fresh hstarts := by
    rcases hwork with hwork | ⟨rfl, -⟩
    · exact hwork.2
    · exact absurd hstarts (by decide : ¬ MainPoint.Starts .joinWorker)
  working := by
    rintro rfl
    rcases hwork with hwork | hwork
    · exact absurd hwork.1 (by decide)
    · exact hwork.2
  joining := by
    rintro rfl
    rcases hmain with hmain | hmain | hmain <;> cases hmain
  done hd := by
    refine .inl ((h.done hd).resolve_right ?_)
    rcases hstarts with hstarts | hstarts | hstarts <;> rw [hstarts] <;> decide
  quit hq halive := by
    have hjoin : s.main ≠ .joinServer := by
      rcases hstarts with hstarts | hstarts | hstarts <;> rw [hstarts] <;> decide
    refine absurd hq (h.not_quit hfree hjoin ?_)
    rcases halive with ⟨hstarted, hrun⟩ | hmain'
    · exact (hserver hstarted).imp_left fun hs ↦ ⟨hs, hrun⟩
    · rcases hmain with rfl | rfl | rfl <;> cases hmain'
  ended := by
    rintro rfl
    rcases hmain with hmain | hmain | hmain <;> cases hmain

theorem Inv.runStep (h : s.Inv) (hhandler : s.handler = .idle ∨ s.handler = .done)
    (hawaits : s.awaits = none) (ok : Bool) : (s.runStep ok).Inv := by
  have hfree : s.handler ≠ .joinServer := by
    rcases hhandler with h | h <;> rw [h] <;> decide
  have hleave (hmain : s.main ≠ .joinServer) : Inv { s with main := .shutdown } :=
    inv_leave fun halive ↦ h.not_quit hfree hmain (.inl halive)
  rw [AgentProcess.runStep]
  cases hmain : s.main with
  | startServer =>
    cases ok with
    | false => exact hleave (by rw [hmain]; decide)
    | true =>
      exact h.started hfree (.inl hmain) (.inl rfl) (fun _ ↦ .inr hmain)
        (.inl ⟨by decide, h.fresh (.inl hmain)⟩)
  | startListener =>
    cases ok with
    | false => exact hleave (by rw [hmain]; decide)
    | true =>
      exact h.started hfree (.inr (.inl hmain)) (.inr (.inl rfl)) .inl
        (.inl ⟨by decide, h.fresh (.inr (.inl hmain))⟩)
  | startWorker =>
    cases ok with
    | false => exact hleave (by rw [hmain]; decide)
    | true =>
      exact h.started hfree (.inr (.inr hmain)) (.inr (.inr rfl)) .inl (.inr ⟨rfl, by decide⟩)
  | joinWorker | joinChannel => exact hleave (by rw [hmain]; decide)
  | joinServer =>
    have hdead : ¬ s.ServerAlive := by
      intro halive
      rcases hhandler with hh | hh <;> simp [awaits, hh, hmain, halive] at hawaits
    exact inv_leave fun halive ↦ absurd halive hdead
  | shutdown =>
    have hquit (halive : s.ServerAlive) : s.server.quit ≠ true :=
      h.not_quit hfree (by rw [hmain]; decide) (.inl halive)
    dsimp only
    split
    · exact inv_of_leaving (.inr (.inl rfl)) (fun _ ↦ hhandler) (fun _ _ ↦ .inr rfl) nofun
    · rename_i hserver
      split
      · exact inv_of_leaving (.inr (.inr (.inl rfl))) nofun
          (fun hq halive ↦ absurd hq (hquit halive)) nofun
      · rename_i hchannel
        have hchannel : s.channel = false := Bool.eq_false_iff.mpr hchannel
        have hdead : ¬ s.ServerAlive := fun halive ↦ hserver ⟨halive, .inr hchannel⟩
        exact inv_of_leaving (.inr (.inr (.inr rfl))) nofun (fun _ halive ↦ absurd halive hdead)
          fun _ ↦ ⟨hchannel, hdead⟩
  | ended => exact h

/-- The handler is at work. -/
theorem Inv.not_joining (h : s.Inv) {p : StopPoint} (hhandler : s.handler = p)
    (hidle : p ≠ .idle) (hdone : p ≠ .done) : s.main ≠ .joinServer := by
  subst hhandler
  exact fun hmain ↦ (h.joining hmain).elim hidle hdone

/-- The handler takes a step, and `_quit` is set only where it joins the server. -/
theorem Inv.handled (h : s.Inv) (hjoin : s.main ≠ .joinServer) (hended : s.main ≠ .ended)
    {handler : StopPoint} {quit waitStop : Bool} (done : handler = .done → waitStop = true)
    (hquit : quit = true → s.ServerAlive ∨ s.main = .startServer → handler = .joinServer) :
    Inv { s with
      handler := handler, server := { s.server with quit := quit }, waitStop := waitStop } where
  unstarted := h.unstarted
  fresh := h.fresh
  working := h.working
  joining hmain := absurd hmain hjoin
  done hd := .inl (done hd)
  quit hq halive := .inl (hquit hq halive)
  ended hmain := absurd hmain hended

theorem Inv.mainStep (h : s.Inv) (hawaits : s.awaits = none) (hended : s.main ≠ .ended)
    (ok : Bool) : (s.mainStep ok).Inv := by
  rw [AgentProcess.mainStep]
  cases hhandler : s.handler with
  | idle => exact h.runStep (.inl hhandler) hawaits ok
  | done => exact h.runStep (.inr hhandler) hawaits ok
  | setQuit =>
    have hjoin := h.not_joining hhandler (by decide) (by decide)
    exact h.handled hjoin hended nofun fun _ _ ↦ rfl
  | joinServer =>
    have hjoin := h.not_joining hhandler (by decide) (by decide)
    have hdead : ¬ s.ServerAlive := fun halive ↦ by simp [awaits, hhandler, halive] at hawaits
    dsimp only
    split
    · rename_i hstarted
      refine h.handled hjoin hended nofun fun _ halive ↦ absurd halive fun halive ↦ ?_
      exact halive.elim hdead fun hmain ↦
        Bool.false_ne_true ((h.unstarted hmain).symm.trans hstarted)
    · exact inv_of_leaving (.inl rfl) nofun (fun _ halive ↦ absurd halive hdead) nofun
  | setStop =>
    have hjoin := h.not_joining hhandler (by decide) (by decide)
    exact h.handled hjoin hended (fun _ ↦ rfl) fun hq halive ↦
      absurd hq (h.not_quit (by rw [hhandler]; decide) hjoin halive)

theorem runStep_of_ended {server : CredServer} (ok : Bool) (h : server.run = .ended) :
    server.runStep ok = server := by
  rw [CredServer.runStep, h]

/-- A server that has ended does not come back. -/
theorem alive_of_runStep {ok : Bool}
    (halive : ServerAlive { s with server := s.server.runStep ok }) : s.ServerAlive := by
  refine ⟨halive.1, fun hdead ↦ halive.2 ?_⟩
  rw [← hdead]
  exact congrArg CredServer.run (runStep_of_ended ok hdead)

/-- The server alone may end, and forget that it has been told to. -/
theorem Inv.serverStep (h : s.Inv) (hended : s.main ≠ .ended) (ok : Bool) :
    Inv { s with server := s.server.runStep ok } where
  unstarted := h.unstarted
  fresh := h.fresh
  working := h.working
  joining := h.joining
  done := h.done
  quit hq halive := by
    have hreset : s.server.run ≠ .reset := by
      intro hrun
      simp [CredServer.runStep, hrun] at hq
    exact h.quit ((CredServer.runStep_quit ok hreset).symm.trans hq)
      (halive.imp_left alive_of_runStep)
  ended hmain := absurd hmain hended

theorem workStep_ne_notStarted (ok : Bool) (h : s.work ≠ .notStarted) :
    s.workStep ok ≠ .notStarted := by
  cases hwork : s.work with
  | notStarted => exact absurd hwork h
  | reports | round => cases ok <;> simp [workStep, hwork]
  | test => cases hstop : s.waitStop <;> simp [workStep, hwork, hstop]
  | shutdownReport | ended => simp [workStep, hwork]

theorem Inv.step (h : s.Inv) (e : StopEvent) : (s.step e).Inv := by
  by_cases hended : s.main = .ended
  · rw [AgentProcess.step.eq_def, if_pos hended]
    exact h
  · rw [step_of_ne hended]
    cases e with
    | main ok =>
      dsimp only
      split
      · rename_i hawaits
        exact h.mainStep hawaits hended ok
      · exact h
    | server ok =>
      dsimp only
      split
      · exact h.serverStep hended ok
      · exact h
    | worker ok =>
      exact {
        unstarted := h.unstarted
        fresh := fun hstarts ↦ by simp [workStep, h.fresh hstarts]
        working := fun hmain ↦ workStep_ne_notStarted ok (h.working hmain)
        joining := h.joining
        done := h.done
        quit := h.quit
        ended := fun hmain ↦ absurd hmain hended }
    | signal =>
      dsimp only
      split
      · rename_i hsignal
        obtain ⟨hidle, hjoin, -⟩ := hsignal
        exact h.handled hjoin hended nofun fun hq halive ↦
          absurd hq (h.not_quit (by rw [hidle]; decide) hjoin halive)
      · exact h
    | login =>
      dsimp only
      split
      · exact { h with ended := fun hmain ↦ absurd hmain hended }
      · exact h
    | channelEnds => exact { h with ended := fun hmain ↦ absurd hmain hended }

/-! ## Whether the process is to end -/

theorem runStep_handler (s : AgentProcess) (ok : Bool) : (s.runStep ok).handler = s.handler := by
  rw [runStep]
  split <;> (try split_ifs) <;> rfl

theorem leaving_runStep (h : ¬ s.main.Starts) (ok : Bool) : (s.runStep ok).main.Leaving := by
  rw [runStep]
  cases hmain : s.main with
  | startServer => exact absurd (.inl hmain) h
  | startListener => exact absurd (.inr (.inl hmain)) h
  | startWorker => exact absurd (.inr (.inr hmain)) h
  | joinWorker | joinServer | joinChannel => exact .inl rfl
  | ended => exact .inr (.inr (.inr hmain))
  | shutdown =>
    dsimp only
    split_ifs
    · exact .inr (.inl rfl)
    · exact .inr (.inr (.inl rfl))
    · exact .inr (.inr (.inr rfl))

theorem Stopping.mainStep (h : s.Inv) (hs : s.Stopping) (ok : Bool) : (s.mainStep ok).Stopping := by
  rw [AgentProcess.mainStep]
  cases hhandler : s.handler with
  | setQuit | setStop => exact .inl nofun
  | joinServer =>
    dsimp only
    split_ifs <;> exact .inl nofun
  | done =>
    refine .inl ?_
    rw [runStep_handler, hhandler]
    decide
  | idle =>
    refine .inr (.inl (leaving_runStep (fun hstarts ↦ ?_) ok))
    have hwork := h.fresh hstarts
    rcases hs with hs | hs | hs | hs
    · exact hs hhandler
    · exact not_starts_of_leaving hs hstarts
    · cases hwork.symm.trans hs
    · cases hwork.symm.trans hs

/-- What is to end stays so. -/
theorem Stopping.step (h : s.Inv) (hs : s.Stopping) (e : StopEvent) : (s.step e).Stopping := by
  by_cases hended : s.main = .ended
  · rw [AgentProcess.step.eq_def, if_pos hended]
    exact hs
  rw [step_of_ne hended]
  cases e with
  | main ok =>
    dsimp only
    split_ifs
    · exact hs.mainStep h ok
    · exact hs
  | server ok =>
    dsimp only
    split_ifs <;> exact hs
  | worker ok =>
    refine hs.imp_right (Or.imp_right fun hwork ↦ .inr ?_)
    rcases hwork with hwork | hwork <;> simp [workStep, hwork]
  | signal =>
    dsimp only
    split_ifs
    · exact .inl nofun
    · exact hs
  | login =>
    dsimp only
    split_ifs <;> exact hs
  | channelEnds => exact hs

theorem awaits_of_starts (hidle : s.handler = .idle) (hstarts : s.main.Starts) :
    s.awaits = none := by
  rw [awaits_of_free (.inl hidle)]
  rcases hstarts with hmain | hmain | hmain <;> rw [hmain]

theorem stopping_of_causes (h : s.Inv) (hended : s.main ≠ .ended) {e : StopEvent}
    (hcauses : s.Causes e) : (s.step e).Stopping := by
  by_cases hs : s.Stopping
  · exact hs.step h e
  have hidle : s.handler = .idle := not_not.mp fun hidle ↦ hs (.inl hidle)
  rw [step_of_ne hended]
  cases e with
  | server ok => cases hcauses
  | login => cases hcauses
  | channelEnds => cases hcauses
  | signal =>
    dsimp only
    split_ifs with hsignal
    · exact .inl nofun
    · refine absurd ⟨hidle, fun hmain ↦ ?_, fun hmain ↦ ?_⟩ hsignal
      · exact hs (.inr (.inl (.inr (.inl hmain))))
      · exact hs (.inr (.inl (.inr (.inr (.inl hmain)))))
  | main ok =>
    obtain ⟨rfl, hstarts⟩ := hcauses
    dsimp only
    rw [if_pos (awaits_of_starts hidle hstarts), AgentProcess.mainStep, hidle]
    dsimp only
    rw [runStep]
    rcases hstarts with hmain | hmain | hmain <;> rw [hmain] <;> exact .inr (.inl (.inl rfl))
  | worker ok =>
    obtain ⟨rfl, hwork | hwork⟩ := hcauses
    · exact .inr (.inr (.inr (by simp [workStep, hwork])))
    · exact .inr (.inr (.inl (by simp [workStep, hwork])))

/-- Nothing has happened yet. -/
def Running (s : AgentProcess) : Prop := ¬ s.Stopping ∧ s.waitStop = false

theorem Running.idle (hs : s.Running) : s.handler = .idle :=
  not_not.mp fun hidle ↦ hs.1 (.inl hidle)

/-- Starting the threads does not end the process. -/
theorem Running.startStep (hs : s.Running) (hstarts : s.main.Starts) :
    (s.runStep true).Running := by
  have hidle := hs.idle
  obtain ⟨hstopping, hstop⟩ := hs
  simp only [Stopping, not_or] at hstopping
  rw [runStep]
  rcases hstarts with hmain | hmain | hmain <;> rw [hmain]
  · exact ⟨by simp [Stopping, hidle, MainPoint.Leaving, hstopping], hstop⟩
  · exact ⟨by simp [Stopping, hidle, MainPoint.Leaving, hstopping], hstop⟩
  · exact ⟨by simp [Stopping, hidle, MainPoint.Leaving], hstop⟩

theorem Running.step (hs : s.Running) {e : StopEvent} (hcauses : ¬ s.Causes e) :
    (s.step e).Running := by
  have hidle := hs.idle
  have hstopping := hs.1
  simp only [Stopping, not_or] at hstopping
  obtain ⟨-, hleaving, hreport, hwork⟩ := hstopping
  have hended : s.main ≠ .ended := fun hmain ↦ hleaving (.inr (.inr (.inr hmain)))
  rw [step_of_ne hended]
  cases e with
  | main ok =>
    dsimp only
    by_cases hstarts : s.main.Starts
    · have hok : ok = true := by
        cases ok with
        | true => rfl
        | false => exact absurd ⟨rfl, hstarts⟩ hcauses
      rw [if_pos (awaits_of_starts hidle hstarts), AgentProcess.mainStep, hidle, hok]
      exact hs.startStep hstarts
    · have hawaits : s.awaits ≠ none := by
        rw [awaits_of_free (.inl hidle)]
        cases hmain : s.main with
        | startServer => exact absurd (.inl hmain) hstarts
        | startListener => exact absurd (.inr (.inl hmain)) hstarts
        | startWorker => exact absurd (.inr (.inr hmain)) hstarts
        | joinWorker =>
          dsimp only
          rw [if_neg hwork]
          exact Option.some_ne_none _
        | shutdown => exact absurd (.inl hmain) hleaving
        | joinServer => exact absurd (.inr (.inl hmain)) hleaving
        | joinChannel => exact absurd (.inr (.inr (.inl hmain))) hleaving
        | ended => exact absurd hmain hended
      rw [if_neg hawaits]
      exact hs
  | server ok =>
    dsimp only
    split_ifs <;> exact hs
  | worker ok =>
    have hgoes : s.workStep ok ≠ .shutdownReport ∧ s.workStep ok ≠ .ended := by
      rw [workStep.eq_def, hs.2]
      cases hw : s.work with
      | notStarted | test => cases ok <;> decide
      | reports =>
        cases ok with
        | true => decide
        | false => exact absurd ⟨rfl, .inl hw⟩ hcauses
      | round =>
        cases ok with
        | true => decide
        | false => exact absurd ⟨rfl, .inr hw⟩ hcauses
      | shutdownReport => exact absurd hw hreport
      | ended => exact absurd hw hwork
    refine ⟨?_, hs.2⟩
    rintro (h | h | h | h)
    · exact h hidle
    · exact hleaving h
    · exact hgoes.1 h
    · exact hgoes.2 h
  | signal => exact absurd trivial hcauses
  | login =>
    dsimp only
    split_ifs <;> exact hs
  | channelEnds => exact hs

/-! ## What the server is told -/

/-- The server has been told to stop where it is joined. -/
def Told (s : AgentProcess) : Prop := s.Joins → s.ServerAlive → s.server.quit = true

/-- A server that has ended stays so. -/
theorem dead_step (h : s.server.run = .ended) (e : StopEvent) : (s.step e).server.run = .ended := by
  by_cases hended : s.main = .ended
  · rw [step.eq_def, if_pos hended]
    exact h
  rw [step_of_ne hended]
  cases e with
  | main ok =>
    dsimp only
    split_ifs
    · rw [mainStep, runStep]
      split <;> (try split) <;> (try split_ifs) <;> exact h
    · exact h
  | server ok =>
    dsimp only
    split_ifs
    · exact (congrArg CredServer.run (runStep_of_ended ok h)).trans h
    · exact h
  | worker ok => exact h
  | signal =>
    dsimp only
    split_ifs <;> exact h
  | login =>
    dsimp only
    split_ifs <;> exact h
  | channelEnds => exact h

theorem told_runStep (hfree : s.handler ≠ .joinServer) (ok : Bool) (hmain : s.main ≠ .ended) :
    (s.runStep ok).Joins → (s.runStep ok).server.quit = true := by
  rintro (hjoins | hjoins)
  · rw [runStep_handler] at hjoins
    exact absurd hjoins hfree
  · rw [runStep] at hjoins ⊢
    cases hm : s.main with
    | startServer | startListener | startWorker =>
      rw [hm] at hjoins
      cases ok <;> cases hjoins
    | joinWorker | joinServer | joinChannel =>
      rw [hm] at hjoins
      cases hjoins
    | ended => exact absurd hm hmain
    | shutdown =>
      rw [hm] at hjoins
      dsimp only at hjoins ⊢
      split_ifs at hjoins ⊢
      rfl

theorem Told.step (h : s.Inv) (hs : s.Told) {e : StopEvent} (hloses : ¬ s.Loses e) :
    (s.step e).Told := by
  by_cases hended : s.main = .ended
  · rw [AgentProcess.step.eq_def, if_pos hended]
    exact hs
  rw [step_of_ne hended]
  cases e with
  | main ok =>
    dsimp only
    split_ifs
    · rw [mainStep]
      cases hhandler : s.handler with
      | idle =>
        exact fun hjoins _ ↦ told_runStep (by rw [hhandler]; decide) ok hended hjoins
      | done =>
        exact fun hjoins _ ↦ told_runStep (by rw [hhandler]; decide) ok hended hjoins
      | setQuit => exact fun _ _ ↦ rfl
      | setStop =>
        have hjoin := h.not_joining hhandler (by decide) (by decide)
        exact fun hjoins _ ↦ absurd hjoins (not_or.mpr ⟨nofun, hjoin⟩)
      | joinServer =>
        have hjoin := h.not_joining hhandler (by decide) (by decide)
        dsimp only
        split_ifs
        · exact fun hjoins _ ↦ absurd hjoins (not_or.mpr ⟨nofun, hjoin⟩)
        · exact fun hjoins _ ↦ absurd hjoins (not_or.mpr ⟨nofun, nofun⟩)
    · exact hs
  | server ok =>
    dsimp only
    split_ifs with hstarted
    · intro hjoins halive
      have hquit : s.server.quit = true := hs hjoins (alive_of_runStep halive)
      have hreset : s.server.run ≠ .reset := fun hrun ↦ hloses ⟨hended, hstarted, hrun, hquit⟩
      exact (CredServer.runStep_quit ok hreset).trans hquit
    · exact hs
  | worker ok => exact hs
  | signal =>
    dsimp only
    split_ifs with hsignal
    · exact fun hjoins _ ↦ absurd hjoins (not_or.mpr ⟨nofun, hsignal.2.1⟩)
    · exact hs
  | login =>
    dsimp only
    split_ifs <;> exact hs
  | channelEnds => exact hs

theorem dead_of_raises {e : StopEvent} (h : s.ServerRaises e) :
    (s.step e).server.run = .ended := by
  cases e with
  | main | worker | signal | login | channelEnds => cases h
  | server ok =>
    obtain ⟨hended, rfl, hstarted, hrun⟩ := h
    rw [step_of_ne hended]
    dsimp only
    rw [if_pos hstarted, CredServer.runStep]
    rcases hrun with hrun | hrun | hrun | hrun <;> rw [hrun] <;> rfl

theorem loses_alive {e : StopEvent} (h : s.Loses e) : s.server.run ≠ .ended := by
  cases e with
  | main | worker | signal | login | channelEnds => cases h
  | server ok =>
    rw [h.2.2.1]
    decide

/-- The server has lost the stop, and the main thread waits for it. -/
structure Stuck (s : AgentProcess) : Prop where
  started : s.serverStarted = true
  quit : s.server.quit = false
  looping : s.server.run = .context ∨ s.server.run = .test ∨ s.server.run = .iteration ∨
    s.server.run = .sleep
  joins : s.Joins

theorem Stuck.alive (hs : s.Stuck) : s.ServerAlive := by
  refine ⟨hs.started, ?_⟩
  rcases hs.looping with hrun | hrun | hrun | hrun <;> rw [hrun] <;> decide

theorem Stuck.not_ended (h : s.Inv) (hs : s.Stuck) : s.main ≠ .ended :=
  fun hmain ↦ (h.ended hmain).2 hs.alive

theorem Stuck.awaits (h : s.Inv) (hs : s.Stuck) : s.awaits = some .server := by
  rcases hs.joins with hhandler | hmain
  · rw [AgentProcess.awaits, hhandler]
    exact if_pos hs.alive
  · rw [awaits_of_free (h.joining hmain), hmain]
    exact if_pos hs.alive

theorem stuck_of_loses (h : s.Inv) {e : StopEvent} (hloses : s.Loses e) : (s.step e).Stuck := by
  cases e with
  | main | worker | signal | login | channelEnds => cases hloses
  | server ok =>
    obtain ⟨hended, hstarted, hrun, hquit⟩ := hloses
    have halive : s.ServerAlive := ⟨hstarted, by rw [hrun]; decide⟩
    rw [step_of_ne hended]
    dsimp only
    rw [if_pos hstarted, CredServer.runStep, hrun]
    exact {
      started := hstarted
      quit := rfl
      looping := .inl rfl
      joins := h.quit hquit (.inl halive) }

theorem Stuck.step (h : s.Inv) (hs : s.Stuck) {e : StopEvent} (hraises : ¬ s.ServerRaises e) :
    (s.step e).Stuck := by
  rw [step_of_ne (hs.not_ended h)]
  cases e with
  | main ok =>
    dsimp only
    rw [if_neg (by rw [hs.awaits h]; exact Option.some_ne_none _)]
    exact hs
  | server ok =>
    dsimp only
    rw [if_pos hs.started]
    have hok (hpoint : s.server.run = .context ∨ s.server.run = .iteration ∨
        s.server.run = .sleep) : ok = true := by
      cases ok with
      | true => rfl
      | false => exact absurd ⟨hs.not_ended h, rfl, hs.started, .inr hpoint⟩ hraises
    refine ⟨hs.started, ?_, ?_, hs.joins⟩
    · refine (CredServer.runStep_quit ok ?_).trans hs.quit
      rcases hs.looping with hrun | hrun | hrun | hrun <;> rw [hrun] <;> decide
    · rcases hs.looping with hrun | hrun | hrun | hrun
      · rw [CredServer.runStep, hrun, hok (.inl hrun)]
        exact .inr (.inl rfl)
      · rw [CredServer.runStep, hrun, hs.quit]
        exact .inr (.inr (.inl rfl))
      · rw [CredServer.runStep, hrun, hok (.inr (.inl hrun))]
        exact .inr (.inr (.inr rfl))
      · rw [CredServer.runStep, hrun, hok (.inr (.inr hrun))]
        exact .inr (.inl rfl)
  | worker ok => exact { hs with }
  | signal =>
    dsimp only
    split_ifs with hsignal
    · exact absurd hs.joins (not_or.mpr ⟨by rw [hsignal.1]; decide, hsignal.2.1⟩)
    · exact hs
  | login =>
    dsimp only
    split_ifs
    · exact { hs with }
    · exact hs
  | channelEnds => exact { hs with }

end Steps

end AgentProcess

end GuestAgent
