import GuestAgent.Agent.Process
import GuestAgent.Library.Fair
import Mathlib.Data.List.GetD

/-!
# Stopping the agent

`ends_iff` says of every fair run of the agent, in which each thread gets its turn again and again,
whether the process ends.  Something has to bring it about: the signal, or a thread that cannot be
started, or an exception in the worker.  Then the server must not lose the stop to the assignment in
front of its loop, unless it raises later on, and the credentials channel must not wait for ever for
whoever has connected to it.

Whose turn brings the end closer is told from what the main thread waits for.  `rank` adds up the
steps that each of the threads has before it.  None of them is ever increased by what another thread
does, and `advances` says that the one that is waited for decreases its own.
-/

set_option autoImplicit false

namespace GuestAgent

/-! ## Runs -/

/-- A run in which every thread gets its turn again and again, and the host stops sending logins. -/
structure FairRun where
  event : ℕ → StopEvent
  main : ∀ n, ∃ m ≥ n, ∃ ok, event m = .main ok
  server : ∀ n, ∃ m ≥ n, ∃ ok, event m = .server ok
  worker : ∀ n, ∃ m ≥ n, ∃ ok, event m = .worker ok
  logins : ∃ n, ∀ m ≥ n, event m ≠ .login

namespace FairRun

/-- The process after some events. -/
def state (r : FairRun) : ℕ → AgentProcess := Fair.state AgentProcess.step .start r.event

def Ends (r : FairRun) : Prop := ∃ n, (r.state n).main = .ended

end FairRun

namespace AgentProcess

section Steps

variable {s : AgentProcess}

/-! ## The rank -/

/-- The steps the handler has before it. -/
def handlerRank : StopPoint → ℕ
  | .idle => 4
  | .setQuit => 3
  | .joinServer => 2
  | .setStop => 1
  | .done => 0

/-- The steps the main thread has before it, with a server and a channel that may have to be
joined. -/
def mainRank (server channel : ℕ) : MainPoint → ℕ
  | .startServer => 10
  | .startListener => 9
  | .startWorker => 8
  | .joinWorker => 7
  | .shutdown => 1 + 2 * server + 3 * channel
  | .joinServer => 2 + 3 * channel
  | .joinChannel => 2 + 2 * server + channel
  | .ended => 0

/-- The steps the server has before it, once it has been told to stop. -/
def serverRank (server : CredServer) : ℕ :=
  if server.quit then CredServer.left server.run else if server.run = .ended then 0 else 3

/-- The steps `doWork` has before it, once it is to end. -/
def workRank (waitStop : Bool) : WorkPoint → ℕ
  | .ended => 0
  | .shutdownReport => 1
  | .test => if waitStop then 2 else 4
  | .reports | .round => if waitStop then 3 else 4
  | .notStarted => 4

def serverCount (s : AgentProcess) : ℕ := if s.ServerAlive then 1 else 0

def rank (s : AgentProcess) : ℕ :=
  handlerRank s.handler + mainRank s.serverCount s.channel.toNat s.main + serverRank s.server +
    workRank s.waitStop s.work

theorem serverRank_le (server : CredServer) : serverRank server ≤ 3 := by
  rw [serverRank]
  split_ifs
  · exact CredServer.left_le _
  · exact Nat.zero_le 3
  · exact Nat.le_refl 3

theorem serverRank_tellServer_le (s : AgentProcess) :
    serverRank s.tellServer.server ≤ serverRank s.server := by
  rw [tellServer, serverRank, serverRank, if_pos rfl]
  split_ifs with hquit hended
  · exact Nat.le_refl _
  · rw [hended]
    exact Nat.le_refl 0
  · exact CredServer.left_le _

theorem serverCount_of_not_alive (h : ¬ s.ServerAlive) : s.serverCount = 0 := if_neg h

theorem serverCount_of_alive (h : s.ServerAlive) : s.serverCount = 1 := if_pos h

theorem serverCount_le (s : AgentProcess) : s.serverCount ≤ 1 := by
  rw [serverCount]
  split_ifs <;> omega

/-- Behind `run` there are six steps at most. -/
theorem mainRank_shutdown_le (s : AgentProcess) :
    mainRank s.serverCount s.channel.toNat .shutdown ≤ 6 := by
  have hserver := s.serverCount_le
  have hchannel := Bool.toNat_le s.channel
  rw [mainRank]
  omega

theorem workRank_le (waitStop : Bool) (work : WorkPoint) : workRank waitStop work ≤ 4 := by
  cases work <;> cases waitStop <;> decide

/-- The main thread comes closer to its end. -/
theorem rank_lt {t : AgentProcess} (hhandler : handlerRank t.handler ≤ handlerRank s.handler)
    (hserver : serverRank t.server ≤ serverRank s.server)
    (hwork : workRank t.waitStop t.work ≤ workRank s.waitStop s.work)
    (hmain : mainRank t.serverCount t.channel.toNat t.main <
      mainRank s.serverCount s.channel.toNat s.main) : t.rank < s.rank := by
  rw [rank, rank]
  omega

theorem rank_runStep_lt (h : s.Inv) (hhandler : s.handler = .idle ∨ s.handler = .done)
    (hawaits : s.awaits = none) (hended : s.main ≠ .ended) (ok : Bool) :
    (s.runStep ok).rank < s.rank := by
  have hsame {t : AgentProcess} (hh : t.handler = s.handler) (hs : t.server = s.server)
      (hw : workRank t.waitStop t.work ≤ workRank s.waitStop s.work)
      (hmain : mainRank t.serverCount t.channel.toNat t.main <
        mainRank s.serverCount s.channel.toNat s.main) : t.rank < s.rank :=
    rank_lt (Nat.le_of_eq (congrArg _ hh)) (Nat.le_of_eq (congrArg _ hs)) hw hmain
  have hleave (hmain : 6 < mainRank s.serverCount s.channel.toNat s.main) :
      rank { s with main := .shutdown } < s.rank :=
    hsame rfl rfl (Nat.le_refl _) (Nat.lt_of_le_of_lt s.mainRank_shutdown_le hmain)
  rw [AgentProcess.runStep]
  cases hmain : s.main with
  | startServer =>
    cases ok with
    | false => exact hleave (by rw [hmain, mainRank]; decide)
    | true => exact hsame rfl rfl (Nat.le_refl _) (by rw [hmain]; exact Nat.lt_succ_self _)
  | startListener =>
    cases ok with
    | false => exact hleave (by rw [hmain, mainRank]; decide)
    | true => exact hsame rfl rfl (Nat.le_refl _) (by rw [hmain]; exact Nat.lt_succ_self _)
  | startWorker =>
    cases ok with
    | false => exact hleave (by rw [hmain, mainRank]; decide)
    | true =>
      refine hsame rfl rfl ?_ (by rw [hmain]; exact Nat.lt_succ_self _)
      rw [h.fresh (.inr (.inr hmain))]
      exact workRank_le ..
  | joinWorker => exact hleave (by rw [hmain, mainRank]; decide)
  | joinServer =>
    have hdead : ¬ s.ServerAlive := by
      intro halive
      rcases hhandler with hh | hh <;> simp [awaits, hh, hmain, halive] at hawaits
    have hcount : s.serverCount = 0 := serverCount_of_not_alive hdead
    refine hsame rfl rfl (Nat.le_refl _) ?_
    show mainRank s.serverCount s.channel.toNat .shutdown < _
    rw [hmain, hcount, mainRank, mainRank]
    omega
  | joinChannel =>
    have hchannel : s.channel = false := by
      rcases hhandler with hh | hh <;> simpa [awaits, hh, hmain] using hawaits
    refine hsame rfl rfl (Nat.le_refl _) ?_
    show mainRank s.serverCount s.channel.toNat .shutdown < _
    rw [hmain, hchannel, mainRank, mainRank, Bool.toNat_false]
    omega
  | shutdown =>
    dsimp only
    split
    · rename_i hserver
      refine rank_lt (Nat.le_refl _) s.serverRank_tellServer_le (Nat.le_refl _) ?_
      show mainRank s.serverCount s.channel.toNat .joinServer < _
      rw [hmain, serverCount_of_alive hserver.1, mainRank, mainRank]
      omega
    · split
      · rename_i hchannel
        refine hsame rfl rfl (Nat.le_refl _) ?_
        show mainRank s.serverCount s.channel.toNat .joinChannel < _
        rw [hmain, hchannel, mainRank, mainRank, Bool.toNat_true]
        omega
      · refine hsame rfl rfl (Nat.le_refl _) ?_
        rw [hmain, mainRank, mainRank]
        omega
  | ended => exact absurd hmain hended

theorem rank_mainStep_lt (h : s.Inv) (hawaits : s.awaits = none) (hended : s.main ≠ .ended)
    (ok : Bool) : (s.mainStep ok).rank < s.rank := by
  rw [AgentProcess.mainStep]
  cases hhandler : s.handler with
  | idle => exact rank_runStep_lt h (.inl hhandler) hawaits hended ok
  | done => exact rank_runStep_lt h (.inr hhandler) hawaits hended ok
  | setQuit =>
    have hserver := s.serverRank_tellServer_le
    show handlerRank .joinServer + mainRank s.serverCount s.channel.toNat s.main +
      serverRank s.tellServer.server + workRank s.waitStop s.work < _
    rw [rank, hhandler, handlerRank, handlerRank]
    omega
  | joinServer =>
    have hdead : ¬ s.ServerAlive := fun halive ↦ by simp [awaits, hhandler, halive] at hawaits
    dsimp only
    split
    · show handlerRank .setStop + mainRank s.serverCount s.channel.toNat s.main +
        serverRank s.server + workRank s.waitStop s.work < _
      rw [rank, hhandler, handlerRank, handlerRank]
      omega
    · show handlerRank .done + mainRank s.serverCount s.channel.toNat .shutdown +
        serverRank s.server + workRank s.waitStop s.work < _
      -- a channel may have to be joined instead
      have hmain : mainRank s.serverCount s.channel.toNat .shutdown ≤
          mainRank s.serverCount s.channel.toNat s.main + 1 := by
        have hchannel := Bool.toNat_le s.channel
        rw [serverCount_of_not_alive hdead]
        cases hmain : s.main with
        | ended => exact absurd hmain hended
        | startServer | startListener | startWorker | joinWorker | shutdown | joinServer
          | joinChannel =>
          simp only [mainRank]
          omega
      rw [rank, hhandler, handlerRank, handlerRank]
      omega
  | setStop =>
    have hwork : workRank true s.work ≤ workRank s.waitStop s.work := by
      cases s.work <;> cases s.waitStop <;> decide
    show handlerRank .done + mainRank s.serverCount s.channel.toNat s.main +
      serverRank s.server + workRank true s.work < _
    rw [rank, hhandler, handlerRank, handlerRank]
    omega

/-- The server comes closer to its end if it has been told to stop. -/
theorem serverRank_runStep_le {server : CredServer} (hloses : server.quit = true →
    server.run ≠ .reset) (ok : Bool) : serverRank (server.runStep ok) ≤ serverRank server := by
  by_cases hended : server.run = .ended
  · exact Nat.le_of_eq (congrArg serverRank (runStep_of_ended ok hended))
  cases hquit : server.quit with
  | true =>
    have hreset := hloses hquit
    rw [serverRank, serverRank, CredServer.runStep_quit ok hreset, hquit]
    exact Nat.le_of_lt (CredServer.left_runStep_lt ok hquit hended hreset).2
  | false =>
    rw [serverRank.eq_def server, hquit, if_neg Bool.false_ne_true, if_neg hended]
    exact serverRank_le _

/-! ## Whose turn it is -/

/-- Whose turn brings the process closer to its end. -/
def helper (s : AgentProcess) : Helper := s.awaits.getD .main

/-- It is the turn of the helper, or the channel has ended. -/
def Helps : Helper → AgentProcess → StopEvent → Prop
  | .main, _, e => ∃ ok, e = .main ok
  | .server, _, e => ∃ ok, e = .server ok
  | .worker, _, e => ∃ ok, e = .worker ok
  | .channel, s, _ => s.channel = false

theorem awaits_cases {k : Helper} (h : s.awaits = some k) :
    k = .server ∧ s.ServerAlive ∧ s.Joins ∨
      k = .worker ∧ s.main = .joinWorker ∧ s.work ≠ .ended ∧
        (s.handler = .idle ∨ s.handler = .done) ∨
      k = .channel ∧ s.main = .joinChannel ∧ s.channel = true := by
  by_cases hfree : s.handler = .idle ∨ s.handler = .done
  · rw [awaits_of_free hfree] at h
    cases hmain : s.main with
    | joinWorker =>
      rw [hmain] at h
      obtain ⟨hwork, ⟨⟩⟩ := Option.ite_none_left_eq_some.mp h
      exact .inr (.inl ⟨rfl, rfl, hwork, hfree⟩)
    | joinServer =>
      rw [hmain] at h
      obtain ⟨halive, ⟨⟩⟩ := Option.ite_none_right_eq_some.mp h
      exact .inl ⟨rfl, halive, .inr hmain⟩
    | joinChannel =>
      rw [hmain] at h
      obtain ⟨hchannel, ⟨⟩⟩ := Option.ite_none_right_eq_some.mp h
      exact .inr (.inr ⟨rfl, rfl, hchannel⟩)
    | startServer | startListener | startWorker | shutdown | ended =>
      rw [hmain] at h
      cases h
  · rw [awaits_of_busy hfree] at h
    obtain ⟨⟨hhandler, halive⟩, ⟨⟩⟩ := Option.ite_none_right_eq_some.mp h
    exact .inl ⟨rfl, halive, .inl hhandler⟩

/-- Who helps, in which state. -/
theorem helps_cases {e : StopEvent} (h : Helps s.helper s e) :
    (∃ ok, e = .main ok) ∧ s.awaits = none ∨
      (∃ ok, e = .server ok) ∧ s.ServerAlive ∧ s.Joins ∨
      (∃ ok, e = .worker ok) ∧ s.awaits = some .worker := by
  cases hawaits : s.awaits with
  | none =>
    rw [helper, hawaits] at h
    exact .inl ⟨h, rfl⟩
  | some k =>
    rw [helper, hawaits] at h
    rcases awaits_cases hawaits with ⟨rfl, halive, hjoins⟩ | ⟨rfl, -⟩ | ⟨rfl, -, hchannel⟩
    · exact .inr (.inl ⟨h, halive, hjoins⟩)
    · exact .inr (.inr ⟨h, rfl⟩)
    · exact absurd (hchannel.symm.trans h) Bool.noConfusion

/-- A step that leaves everything as it is, and is not the helper's. -/
theorem advances_of_eq {e : StopEvent} (hsame : s.step e = s) (hhelps : ¬ Helps s.helper s e) :
    Fair.Advances step rank helper Helps s e :=
  .inr ⟨congrArg rank hsame, congrArg helper hsame, hhelps⟩

theorem advances_main (h : s.Inv) (hended : s.main ≠ .ended) (ok : Bool) :
    Fair.Advances step rank helper Helps s (.main ok) := by
  by_cases hawaits : s.awaits = none
  · refine .inl ?_
    rw [step_of_ne hended]
    dsimp only
    rw [if_pos hawaits]
    exact rank_mainStep_lt h hawaits hended ok
  · refine advances_of_eq ?_ fun hhelps ↦ ?_
    · rw [step_of_ne hended]
      exact if_neg hawaits
    · rcases helps_cases hhelps with ⟨-, hnone⟩ | ⟨⟨_, ⟨⟩⟩, -⟩ | ⟨⟨_, ⟨⟩⟩, -⟩
      exact hawaits hnone

theorem serverRank_ended {server : CredServer} (h : server.run = .ended) :
    serverRank server = 0 := by
  rw [serverRank, h, if_pos rfl]
  split_ifs <;> rfl

theorem serverRank_pos {server : CredServer} (h : server.run ≠ .ended) : 0 < serverRank server := by
  rw [serverRank, if_neg h]
  split_ifs
  · exact CredServer.left_pos h
  · decide

theorem mainRank_mono {server server' channel channel' : ℕ} (hserver : server ≤ server')
    (hchannel : channel ≤ channel') (main : MainPoint) :
    mainRank server channel main ≤ mainRank server' channel' main := by
  cases main <;> simp only [mainRank] <;> omega

/-- A server that is alive, if another one is. -/
theorem serverCount_mono {t : AgentProcess} (h : t.ServerAlive → s.ServerAlive) :
    t.serverCount ≤ s.serverCount := by
  by_cases ht : t.ServerAlive
  · exact Nat.le_of_eq ((serverCount_of_alive ht).trans (serverCount_of_alive (h ht)).symm)
  · rw [serverCount_of_not_alive ht]
    exact Nat.zero_le _

theorem advances_server (hended : s.main ≠ .ended) {ok : Bool} (hloses : ¬ s.Loses (.server ok))
    (htold : s.Joins → s.ServerAlive → s.server.quit = true) :
    Fair.Advances step rank helper Helps s (.server ok) := by
  by_cases hstarted : s.serverStarted = true
  · have hstep : s.step (.server ok) = { s with server := s.server.runStep ok } := by
      rw [step_of_ne hended]
      exact if_pos hstarted
    have hreset (hquit : s.server.quit = true) : s.server.run ≠ .reset :=
      fun hrun ↦ hloses ⟨hended, hstarted, hrun, hquit⟩
    have hle : serverRank (s.server.runStep ok) ≤ serverRank s.server :=
      serverRank_runStep_le hreset ok
    have hmain : mainRank (serverCount { s with server := s.server.runStep ok }) s.channel.toNat
        s.main ≤ mainRank s.serverCount s.channel.toNat s.main := by
      exact mainRank_mono (serverCount_mono alive_of_runStep) (Nat.le_refl _) _
    have hlt (h : serverRank (s.server.runStep ok) < serverRank s.server) :
        (s.step (.server ok)).rank < s.rank := by
      rw [hstep]
      show handlerRank s.handler + mainRank (serverCount { s with server := s.server.runStep ok })
        s.channel.toNat s.main + serverRank (s.server.runStep ok) + workRank s.waitStop s.work <
        s.rank
      rw [rank]
      omega
    refine Fair.advances_of_le ?_ (fun hhelps ↦ hlt ?_) fun hrank ↦ ?_
    · rw [hstep]
      exact Nat.add_le_add_right (Nat.add_le_add (Nat.add_le_add_left hmain _) hle) _
    · rcases helps_cases hhelps with ⟨⟨_, ⟨⟩⟩, -⟩ | ⟨-, halive, hjoins⟩ | ⟨⟨_, ⟨⟩⟩, -⟩
      have hquit := htold hjoins halive
      rw [serverRank, serverRank, CredServer.runStep_quit ok (hreset hquit), hquit]
      exact (CredServer.left_runStep_lt ok hquit halive.2 (hreset hquit)).2
    · -- the server has not ended in this step
      have halive : ServerAlive { s with server := s.server.runStep ok } ↔ s.ServerAlive := by
        by_cases hdead : s.server.run = .ended
        · rw [runStep_of_ended ok hdead]
        · have hrun : (s.server.runStep ok).run ≠ .ended := by
            intro hrun
            refine absurd hrank (Nat.ne_of_lt (hlt ?_))
            rw [serverRank_ended hrun]
            exact serverRank_pos hdead
          exact iff_of_true ⟨hstarted, hrun⟩ ⟨hstarted, hdead⟩
      rw [hstep, helper, helper, awaits, awaits]
      simp only [halive]
  · refine advances_of_eq ?_ fun hhelps ↦ ?_
    · rw [step_of_ne hended]
      exact if_neg hstarted
    · rcases helps_cases hhelps with ⟨⟨_, ⟨⟩⟩, -⟩ | ⟨-, halive, -⟩ | ⟨⟨_, ⟨⟩⟩, -⟩
      exact hstarted halive.1

theorem workRank_workStep_le (s : AgentProcess) (ok : Bool) :
    workRank s.waitStop (s.workStep ok) ≤ workRank s.waitStop s.work := by
  rw [workStep.eq_def]
  cases s.work <;> cases s.waitStop <;> cases ok <;> decide

/-- A worker that is to end comes closer to its end. -/
theorem workRank_workStep_lt (hstop : s.waitStop = true ∨ s.work = .shutdownReport)
    (hstarted : s.work ≠ .notStarted) (hended : s.work ≠ .ended) (ok : Bool) :
    workRank s.waitStop (s.workStep ok) < workRank s.waitStop s.work := by
  rw [workStep.eq_def]
  rcases hstop with hstop | hwork
  · rw [hstop]
    cases hwork : s.work with
    | notStarted => exact absurd hwork hstarted
    | ended => exact absurd hwork hended
    | reports | test | round | shutdownReport => cases ok <;> decide
  · rw [hwork]
    exact Nat.zero_lt_one

/-- A worker that is not waited for makes no difference to the main thread. -/
theorem awaits_worker (h : s.awaits ≠ some .worker) (ok : Bool) :
    awaits { s with work := s.workStep ok } = s.awaits := by
  by_cases hfree : s.handler = .idle ∨ s.handler = .done
  · rw [awaits_of_free hfree] at h
    rw [awaits_of_free hfree, awaits_of_free (s := { s with work := s.workStep ok }) hfree]
    cases hmain : s.main with
    | joinWorker =>
      have hwork : s.work = .ended := by
        by_contra hwork
        rw [hmain] at h
        exact h (if_neg hwork)
      dsimp only
      rw [workStep.eq_def, hwork]
    | startServer | startListener | startWorker | shutdown | joinServer | joinChannel | ended =>
      rfl
  · rw [awaits_of_busy hfree]
    exact awaits_of_busy hfree

theorem advances_worker (h : s.Inv) (hended : s.main ≠ .ended) (hstopping : s.Stopping)
    (ok : Bool) : Fair.Advances step rank helper Helps s (.worker ok) := by
  have hstep : s.step (.worker ok) = { s with work := s.workStep ok } := step_of_ne hended _
  by_cases hawaits : s.awaits = some .worker
  · obtain ⟨hmain, hwork, hfree⟩ : s.main = .joinWorker ∧ s.work ≠ .ended ∧
        (s.handler = .idle ∨ s.handler = .done) := by
      rcases awaits_cases hawaits with ⟨⟨⟩, -⟩ | ⟨-, h⟩ | ⟨⟨⟩, -⟩
      exact h
    have hleaving : ¬ s.main.Leaving := by rw [hmain]; decide
    have hstop : s.waitStop = true ∨ s.work = .shutdownReport := by
      rcases hstopping with hhandler | hleave | hwork' | hwork'
      · exact .inl ((h.done (hfree.resolve_left hhandler)).resolve_right hleaving)
      · exact absurd hleave hleaving
      · exact .inr hwork'
      · exact absurd hwork' hwork
    refine .inl ?_
    rw [hstep]
    exact Nat.add_lt_add_left (workRank_workStep_lt hstop (h.working hmain) hwork ok) _
  · refine Fair.advances_of_le ?_ (fun hhelps ↦ ?_) fun _ ↦ ?_
    · rw [hstep]
      exact Nat.add_le_add_left (workRank_workStep_le s ok) _
    · rcases helps_cases hhelps with ⟨⟨_, ⟨⟩⟩, -⟩ | ⟨⟨_, ⟨⟩⟩, -⟩ | ⟨-, hsome⟩
      exact absurd hsome hawaits
    · rw [hstep, helper, helper]
      exact congrArg (Option.getD · Helper.main) (awaits_worker hawaits ok)

theorem advances_signal (hended : s.main ≠ .ended) :
    Fair.Advances step rank helper Helps s .signal := by
  by_cases hsignal : s.handler = .idle ∧ s.Interruptible
  · refine .inl ?_
    rw [step_of_ne hended]
    dsimp only
    rw [if_pos hsignal]
    show handlerRank .setQuit + mainRank s.serverCount s.channel.toNat s.main +
      serverRank s.server + workRank s.waitStop s.work < _
    rw [rank, hsignal.1, handlerRank, handlerRank]
    omega
  · refine advances_of_eq ?_ fun hhelps ↦ ?_
    · rw [step_of_ne hended]
      exact if_neg hsignal
    · rcases helps_cases hhelps with ⟨⟨_, ⟨⟩⟩, -⟩ | ⟨⟨_, ⟨⟩⟩, -⟩ | ⟨⟨_, ⟨⟩⟩, -⟩

/-- Nor does a channel. -/
theorem awaits_channel (h : s.awaits ≠ some .channel) :
    awaits { s with channel := false } = s.awaits := by
  by_cases hfree : s.handler = .idle ∨ s.handler = .done
  · rw [awaits_of_free hfree] at h
    rw [awaits_of_free hfree, awaits_of_free (s := { s with channel := false }) hfree]
    cases hmain : s.main with
    | joinChannel =>
      have hchannel : ¬ s.channel = true := by
        intro hchannel
        rw [hmain] at h
        exact h (if_pos hchannel)
      exact (if_neg hchannel).symm
    | startServer | startListener | startWorker | shutdown | joinServer | joinWorker | ended => rfl
  · rw [awaits_of_busy hfree]
    exact awaits_of_busy hfree

theorem advances_channelEnds (hended : s.main ≠ .ended) :
    Fair.Advances step rank helper Helps s .channelEnds := by
  have hstep : s.step .channelEnds = { s with channel := false } := step_of_ne hended _
  have hcount : (false).toNat ≤ s.channel.toNat := Nat.zero_le _
  by_cases hawaits : s.awaits = some .channel
  · obtain ⟨hmain, hchannel⟩ : s.main = .joinChannel ∧ s.channel = true := by
      rcases awaits_cases hawaits with ⟨⟨⟩, -⟩ | ⟨⟨⟩, -⟩ | ⟨-, h⟩
      exact h
    refine .inl ?_
    rw [hstep]
    refine rank_lt (Nat.le_refl _) (Nat.le_refl _) (Nat.le_refl _) ?_
    show mainRank s.serverCount (false).toNat s.main < _
    rw [hmain, hchannel]
    exact Nat.lt_succ_self _
  · refine Fair.advances_of_le ?_ (fun hhelps ↦ ?_) fun _ ↦ ?_
    · rw [hstep]
      exact Nat.add_le_add_right (Nat.add_le_add_right
        (Nat.add_le_add_left (mainRank_mono (Nat.le_refl _) hcount _) _) _) _
    · rcases helps_cases hhelps with ⟨⟨_, ⟨⟩⟩, -⟩ | ⟨⟨_, ⟨⟩⟩, -⟩ | ⟨⟨_, ⟨⟩⟩, -⟩
    · rw [hstep, helper, helper]
      exact congrArg (Option.getD · Helper.main) (awaits_channel hawaits)

/-- **Every event brings the end closer**, or waits for whoever is to help. -/
theorem advances (h : s.Inv) (hended : s.main ≠ .ended) (hstopping : s.Stopping) {e : StopEvent}
    (hlogin : e ≠ .login) (hloses : ¬ s.Loses e)
    (htold : s.Joins → s.ServerAlive → s.server.quit = true) :
    Fair.Advances step rank helper Helps s e := by
  cases e with
  | main ok => exact advances_main h hended ok
  | server ok => exact advances_server hended hloses htold
  | worker ok => exact advances_worker h hended hstopping ok
  | signal => exact advances_signal hended
  | login => exact absurd rfl hlogin
  | channelEnds => exact advances_channelEnds hended

end Steps

end AgentProcess

/-! ## Whether it ends -/

namespace FairRun

open AgentProcess

variable (r : FairRun)

theorem inv (n : ℕ) : (r.state n).Inv := Fair.invariant inv_start (fun _ e h ↦ h.step e) n

variable {r} {n m : ℕ}

theorem state_of_ended (h : (r.state n).main = .ended) : ∀ m ≥ n, r.state m = r.state n :=
  Fair.keeps (P := fun s ↦ s = r.state n) rfl fun m _ hm ↦ by
    show (r.state m).step (r.event m) = r.state n
    rw [show r.state m = r.state n from hm, AgentProcess.step.eq_def, if_pos h]

/-- Where nothing brings it about, the process goes on. -/
theorem exists_causes_of_ends (h : r.Ends) : ∃ n, (r.state n).Causes (r.event n) := by
  by_contra hnone
  obtain ⟨n, hended⟩ := h
  have hstart : start.Running := by
    refine ⟨?_, rfl⟩
    rintro (h | h | h | h)
    · exact h rfl
    · exact absurd h (by decide)
    · cases h
    · cases h
  have hrunning : (r.state n).Running :=
    Fair.keeps (n := 0) (P := Running) hstart
      (fun m _ hm ↦ hm.step fun hcauses ↦ hnone ⟨m, hcauses⟩) n (Nat.zero_le n)
  exact hrunning.1 (.inr (.inl (.inr (.inr (.inr hended)))))

/-- Where the stop is lost, the process goes on until the server raises. -/
theorem exists_raises_of_loses (h : r.Ends) (hloses : (r.state n).Loses (r.event n)) :
    ∃ m > n, (r.state m).ServerRaises (r.event m) := by
  by_contra hnone
  have hstuck : ∀ m ≥ n + 1, (r.state m).Stuck :=
    Fair.keeps (P := Stuck) (stuck_of_loses (r.inv n) hloses)
      fun m hm hs ↦ hs.step (r.inv m) fun hraises ↦ hnone ⟨m, hm, hraises⟩
  obtain ⟨k, hended⟩ := h
  have hlater : (r.state (max k (n + 1))).main = .ended := by
    rw [state_of_ended hended _ (Nat.le_max_left ..)]
    exact hended
  exact (hstuck _ (Nat.le_max_right ..)).not_ended (r.inv _) hlater

/-- From some time on the server does not lose a stop, and where it is joined it has been told to
stop. -/
theorem exists_told (h : ∀ n, (r.state n).Loses (r.event n) →
    ∃ m > n, (r.state m).ServerRaises (r.event m)) :
    ∃ n, ∀ m ≥ n, ¬ (r.state m).Loses (r.event m) ∧ (r.state m).Told := by
  by_cases hloses : ∃ n, (r.state n).Loses (r.event n)
  · obtain ⟨n, hn⟩ := hloses
    obtain ⟨m, -, hm⟩ := h n hn
    have hdead : ∀ k ≥ m + 1, (r.state k).server.run = .ended :=
      Fair.keeps (P := fun s : AgentProcess ↦ s.server.run = .ended) (dead_of_raises hm)
        fun k _ hk ↦ dead_step hk _
    refine ⟨m + 1, fun k hk ↦ ⟨fun hloses ↦ ?_, fun _ halive ↦ absurd (hdead k hk) halive.2⟩⟩
    exact loses_alive hloses (hdead k hk)
  · have hnever (m : ℕ) : ¬ (r.state m).Loses (r.event m) := fun hm ↦ hloses ⟨m, hm⟩
    have htold : ∀ m ≥ 0, (r.state m).Told :=
      Fair.keeps (P := Told) (by rintro (hjoins | hjoins) <;> cases hjoins)
        fun m _ hs ↦ hs.step (r.inv m) (hnever m)
    exact ⟨0, fun m hm ↦ ⟨hnever m, htold m hm⟩⟩

/-- **When the agent ends**: in a fair run, exactly when something brings it about, a stop that the
server has lost is followed by an exception in the server, and no channel waits for ever. -/
theorem ends_iff (r : FairRun) : r.Ends ↔
    (∃ n, (r.state n).Causes (r.event n)) ∧
      (∀ n, (r.state n).Loses (r.event n) → ∃ m > n, (r.state m).ServerRaises (r.event m)) ∧
      ∀ n, ∃ m ≥ n, (r.state m).channel = false := by
  constructor
  · intro h
    refine ⟨exists_causes_of_ends h, fun n ↦ exists_raises_of_loses h, fun n ↦ ?_⟩
    obtain ⟨k, hended⟩ := h
    refine ⟨max n k, Nat.le_max_left .., ?_⟩
    rw [state_of_ended hended _ (Nat.le_max_right ..)]
    exact ((r.inv k).ended hended).1
  · rintro ⟨⟨n, hcauses⟩, hraises, hchannel⟩
    by_contra hends
    have hended (m : ℕ) : (r.state m).main ≠ .ended := fun hm ↦ hends ⟨m, hm⟩
    obtain ⟨k, htold⟩ := exists_told hraises
    obtain ⟨l, hlogins⟩ := r.logins
    have hstopping : ∀ m ≥ n + 1, (r.state m).Stopping :=
      Fair.keeps (P := Stopping) (stopping_of_causes (r.inv n) (hended n) hcauses)
        fun m _ hs ↦ hs.step (r.inv m) _
    have hfair (who : Helper) (m : ℕ) : ∃ m' ≥ m, Helps who (r.state m') (r.event m') := by
      cases who with
      | main => exact r.main m
      | server => exact r.server m
      | worker => exact r.worker m
      | channel => exact hchannel m
    obtain ⟨m, -, hm⟩ := Fair.exists_goal (fun s : AgentProcess ↦ s.main = .ended)
      (n := n + 1 + k + l) hfair fun m hm _ ↦
        advances (r.inv m) (hended m) (hstopping m (by omega)) (hlogins m (by omega))
          (htold m (by omega)).1 (htold m (by omega)).2
    exact hended m hm

/-! ## Two runs -/

/-- The threads take turns. -/
def turn (n : ℕ) : StopEvent :=
  match n % 3 with
  | 0 => .main true
  | 1 => .server true
  | _ => .worker true

/-- After some events, the threads take turns. -/
def takingTurns (events : List StopEvent) : FairRun where
  event n := events.getD n (turn n)
  main n := ⟨3 * (n + events.length), by omega, true, by
    rw [List.getD_eq_default _ _ (by omega), turn, Nat.mul_mod_right]
    rfl⟩
  server n := ⟨3 * (n + events.length) + 1, by omega, true, by
    rw [List.getD_eq_default _ _ (by omega), turn, Nat.mul_add_mod]
    rfl⟩
  worker n := ⟨3 * (n + events.length) + 2, by omega, true, by
    rw [List.getD_eq_default _ _ (by omega), turn, Nat.mul_add_mod]
    rfl⟩
  logins := ⟨events.length, fun m hm ↦ by
    rw [List.getD_eq_default _ _ hm, turn]
    split <;> decide⟩

/-- A server that has reached its loop heeds the signal, and the agent ends. -/
example : (takingTurns (List.replicate 9 (.server true) ++ [.main true, .main true, .main true] ++
    List.replicate 9 (.server true) ++ [.signal])).Ends := ⟨60, by decide +kernel⟩

/-- No server raises once the threads take turns. -/
theorem not_raises {events : List StopEvent} (h : ∀ e ∈ events, e ≠ .server false)
    (s : AgentProcess) : ¬ s.ServerRaises ((takingTurns events).event m) := by
  have hevent : (takingTurns events).event m ≠ .server false := by
    change events.getD m (turn m) ≠ _
    rcases Nat.lt_or_ge m events.length with hm | hm
    · rw [List.getD_eq_getElem _ _ hm]
      exact h _ (List.getElem_mem hm)
    · rw [List.getD_eq_default _ _ hm, turn]
      split <;> decide
  intro hraises
  rcases hcase : (takingTurns events).event m with _ | _ | ok | _ | _ <;>
    simp_all [ServerRaises]

/-- Where the server has lost the stop and does not raise, the agent never ends. -/
theorem not_ends_of_loses {events : List StopEvent} (h : ∀ e ∈ events, e ≠ .server false)
    (hloses : ((takingTurns events).state n).Loses ((takingTurns events).event n)) :
    ¬ (takingTurns events).Ends := by
  intro hends
  obtain ⟨m, -, hraises⟩ := exists_raises_of_loses hends hloses
  exact not_raises h _ hraises

/-- The signal comes while the server connects to D-Bus, and the agent never ends. -/
example : ¬ (takingTurns [.main true, .signal, .main true, .server true, .server true]).Ends :=
  not_ends_of_loses (n := 4) (by decide)
    ⟨by decide +kernel, by decide +kernel, by decide +kernel, by decide +kernel⟩

end FairRun

end GuestAgent
