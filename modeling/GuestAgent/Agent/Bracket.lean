import GuestAgent.Agent.Schedule
import GuestAgent.Agent.Version

/-!
# Startup and shutdown

The first message `doWork` sends is `session-startup` and the last one is `session-shutdown`, and a
host takes the two for the beginning and the end of a session.  The loop is in a `try` block whose
handler goes on to the shutdown report, so that nothing that raises in it keeps the session open.
The reports between the startup and the loop are not: what raises there ends `doWork` with the
session open.

`bracketed_iff` says that this, and a version the host has set below zero, are the only ways to end
without the shutdown report.
-/

set_option autoImplicit false

namespace GuestAgent

open Effect Effect.Prog AgentM Transition

/-! ## Which programs can send the shutdown report -/

/-- The operation does not write the shutdown report. -/
def Act.NotShutdown : Act → Prop
  | vioWrite name _ => name ≠ .sessionShutdown
  | _ => True

/-- The program never sends the shutdown report. -/
abbrev NeverShuts {α : Type} (m : AgentM α) : Prop := m.Performs Act.NotShutdown

theorem neverShuts_dr (q : Query) : NeverShuts (dr q) :=
  (performs_perform trivial).bind fun _ ↦ performs_ofExcept _

theorem neverShuts_send {name : MessageName} (h : name ≠ .sessionShutdown)
    (arguments : Option Dict) : NeverShuts (send name arguments) := by
  refine (performs_perform trivial).bind fun v ↦ ?_
  split
  · have hwrite : Act.NotShutdown (.vioWrite name (arguments.getD [])) := h
    exact (performs_perform trivial).bind fun _ ↦
      (performs_perform hwrite).bind fun _ ↦ performs_ofExcept _
  · exact (performs_perform trivial).bind fun _ ↦ performs_perform trivial

/-- A report that is prepared by one call of the data retriever. -/
theorem neverShuts_report {q : Query} {name : MessageName} (h : name ≠ .sessionShutdown)
    (arguments : q.Ans → Option Dict) :
    NeverShuts (dr q >>= fun x ↦ send name (arguments x)) :=
  (neverShuts_dr q).bind fun _ ↦ neverShuts_send h _

theorem neverShuts_sessionStartup : NeverShuts sessionStartup :=
  (performs_perform trivial).bind fun _ ↦ neverShuts_send (by decide) _

theorem neverShuts_sendInfo : NeverShuts sendInfo :=
  (neverShuts_dr _).bind fun _ ↦ (neverShuts_send (by decide) _).bind fun _ ↦
    (neverShuts_dr _).bind fun _ ↦ (neverShuts_send (by decide) _).bind fun _ ↦
      neverShuts_report (by decide) _

theorem neverShuts_sendUserInfo (force : Bool) : NeverShuts (sendUserInfo force) := by
  refine (neverShuts_dr .getActiveUser).bind fun user ↦ (performs_perform trivial).bind fun _ ↦
    (performs_perform trivial).bind fun _ ↦ ?_
  split
  · exact (neverShuts_send (by decide) _).bind fun _ ↦
      performs_perform (a := Act.writeActiveUser user) trivial
  · trivial

theorem neverShuts_sendAppList : NeverShuts sendAppList := neverShuts_report (by decide) _

theorem neverShuts_sendContainerList : NeverShuts sendContainerList :=
  neverShuts_report (by decide) _

theorem neverShuts_sendFQDN : NeverShuts sendFQDN := neverShuts_report (by decide) _

theorem neverShuts_sendTimezone : NeverShuts sendTimezone := neverShuts_report (by decide) _

theorem neverShuts_sendOsInfo : NeverShuts sendOsInfo := neverShuts_report (by decide) _

theorem neverShuts_doWorkStart (config : Config) : NeverShuts (doWorkStart config) :=
  neverShuts_sessionStartup.bind fun _ ↦ (performs_perform trivial).bind fun _ ↦
    neverShuts_sendInfo.bind fun _ ↦ (neverShuts_sendUserInfo false).bind fun _ ↦
      neverShuts_sendAppList.bind fun _ ↦ neverShuts_sendContainerList.bind fun _ ↦
        neverShuts_sendFQDN.bind fun _ ↦ neverShuts_sendTimezone.bind fun _ ↦
          neverShuts_sendOsInfo.bind fun _ ↦ trivial

theorem neverShuts_report_group (g : Group) : NeverShuts g.report := by
  cases g with
  | heartbeat reportedVersion =>
    exact (neverShuts_dr _).bind fun _ ↦ neverShuts_report (by decide) _
  | userCheck => exact neverShuts_sendUserInfo false
  | applications =>
    exact neverShuts_sendAppList.bind fun _ ↦ neverShuts_sendContainerList.bind fun _ ↦
      neverShuts_sendInfo.bind fun _ ↦ neverShuts_sendFQDN
  | disksUsage => exact (neverShuts_dr _).bind fun _ ↦ neverShuts_report (by decide) _
  | numberOfCPUs => exact neverShuts_report (by decide) _

theorem neverShuts_countdown (rate secs : Int) (g : Group) :
    NeverShuts (countdown rate secs g.report) := by
  rw [countdown]
  split
  · exact (neverShuts_report_group g).bind fun _ ↦ trivial
  · trivial

theorem neverShuts_doWorkRound (config : Config) (c : Counters) :
    NeverShuts (doWorkRound config c) := by
  refine Performs.tryExcept ((performs_perform trivial).bind fun stop ↦ ?_) fun e ↦
    (performs_perform trivial).bind fun _ ↦ trivial
  split
  · exact (performs_perform trivial).bind fun _ ↦ trivial
  · refine Performs.bind ?_ fun _ ↦ trivial
    exact (neverShuts_countdown _ _ (.heartbeat _)).bind fun _ ↦
      (neverShuts_countdown _ _ .userCheck).bind fun _ ↦
        (neverShuts_countdown _ _ .applications).bind fun _ ↦
          (neverShuts_countdown _ _ .disksUsage).bind fun _ ↦
            (neverShuts_countdown _ _ .numberOfCPUs).bind fun _ ↦ trivial

/-! ## How `doWork` ends -/

/-- An operation of the agent writes a message, and the write returns. -/
def System.Transmits (p : Platform) (config : Config) (sys : System) (o : Op × Env)
    (name : MessageName) : Prop :=
  ∃ args, (⟨.vioWrite name args, .ok ()⟩ : Σ a : Act, a.Resp) ∈
    (o.1.program config sys.worker).history (handle p o.2) { sys.agent with calls := 0 }

/-- `doWork` ends in this operation. -/
def System.Ends (p : Platform) (config : Config) (sys : System) (o : Op × Env) : Prop :=
  sys.worker ≠ .finished ∧ (System.step p config sys o).worker = .finished

section Ends

variable (p : Platform) {config : Config} {env : Env} {sys : System}

theorem history_send (env : Env) (s : AgentState) (name : MessageName) (arguments : Option Dict) :
    (send name arguments).history (handle p env) s =
      if messageMinApiVersion name ≤ s.apiVersion then
        [⟨.readApiVersion, s.apiVersion⟩, ⟨.log (.sending name arguments), ()⟩,
          ⟨.vioWrite name (arguments.getD []), env.vioWrite s.calls name (arguments.getD [])⟩]
      else
        [⟨.readApiVersion, s.apiVersion⟩, ⟨.readApiVersion, s.apiVersion⟩,
          ⟨.log (.notSupported name s.apiVersion), ()⟩] := by
  have hwrite : ∀ t : AgentState, (vioWrite name (arguments.getD [])).history (handle p env) t =
      [⟨.vioWrite name (arguments.getD []), env.vioWrite t.calls name (arguments.getD [])⟩] := by
    intro t
    rw [vioWrite, history_bind, history_perform, run_perform]
    dsimp only
    rw [history_ofExcept]
    rfl
  rw [send, history_bind, run_readApiVersion]
  dsimp only
  split
  · rw [history_bind, run_log]
    dsimp only
    rw [hwrite]
    rfl
  · rfl

/-- The shutdown report is held back where the version is negative. -/
theorem transmits_sessionShutdown_iff {s : AgentState}
    (hlast : ∀ n args, env.vioWrite n .sessionShutdown args = .ok ()) :
    (∃ args, (⟨.vioWrite .sessionShutdown args, .ok ()⟩ : Σ a : Act, a.Resp) ∈
      (sessionShutdown >>= fun _ ↦ (pure Worker.finished : AgentM Worker)).history (handle p env) s)
        ↔ 0 ≤ s.apiVersion := by
  set t : AgentState := { s with records := s.records ++ [.session .sessionShutdown] } with ht
  have hlog : (log (.session .sessionShutdown)).run (handle p env) s = (.ok (), t) := rfl
  have hhistory : sessionShutdown.history (handle p env) s =
      ⟨.log (.session .sessionShutdown), ()⟩ ::
        (send .sessionShutdown none).history (handle p env) t := by
    rw [sessionShutdown, history_bind, hlog]
    rfl
  have hmin : messageMinApiVersion .sessionShutdown = 0 := rfl
  rw [history_bind_pure, hhistory, history_send, hmin]
  by_cases hversion : 0 ≤ t.apiVersion
  · refine iff_of_true ⟨[], ?_⟩ hversion
    rw [if_pos hversion, hlast]
    simp
  · refine iff_of_false ?_ hversion
    rintro ⟨args, hargs⟩
    rw [if_neg hversion] at hargs
    simp at hargs

/-- **The end of `doWork`.**  Where the last write returns, the shutdown report is written unless
`doWork` ends in the reports before the loop, or the version is negative. -/
theorem transmits_of_ends_iff {o : Op × Env} (hends : sys.Ends p config o)
    (hlast : ∀ n args, o.2.vioWrite n .sessionShutdown args = .ok ()) :
    sys.Transmits p config o .sessionShutdown ↔
      sys.worker ≠ .starting ∧ 0 ≤ sys.agent.apiVersion := by
  obtain ⟨op, env⟩ := o
  obtain ⟨hrunning, hfinished⟩ := hends
  have hop : op = .work := by
    by_contra hne
    refine hrunning ((step_worker_of_not_work p config sys ?_).symm.trans hfinished)
    cases op with
    | work => exact absurd rfl hne
    | _ => rfl
  subst hop
  rw [System.Transmits, Op.program]
  rcases hworker : sys.worker with _ | c | _
  · refine iff_of_false ?_ fun h ↦ h.1 rfl
    rintro ⟨args, hargs⟩
    have hnever : NeverShuts (workerStep config .starting) :=
      (neverShuts_doWorkStart config).bind fun _ ↦ trivial
    exact hnever.of_mem_history hargs rfl
  · -- the round returns, and nothing it performs writes the shutdown report
    set s : AgentState := { sys.agent with calls := 0 }
    have hversion : ((doWorkRound config c).run (handle p env) s).2.apiVersion =
        sys.agent.apiVersion :=
      ((madeOf_doWorkRound Act.IsReport.isQuiet config c).steady p env s).apiVersion
    simp only [System.step, Op.program, hworker, run_workerStep_looping] at hfinished
    rw [workerStep, history_bind]
    rcases hround : (doWorkRound config c).run (handle p env) s with ⟨e | _ | c', t⟩ <;>
      rw [hround] at hfinished hversion
    · rw [run_doWorkRound] at hround
      split at hround
      · cases hround
      · split at hround <;> cases hround
    · have hlooping : Worker.looping c ≠ .starting := Worker.noConfusion
      rw [and_iff_right hlooping, ← hversion, ← transmits_sessionShutdown_iff p hlast]
      refine exists_congr fun args ↦ ⟨fun h ↦ ?_, List.mem_append_right _⟩
      refine (List.mem_append.mp h).resolve_left fun h ↦ ?_
      exact (neverShuts_doWorkRound config c).of_mem_history h rfl
    · cases hfinished
  · exact absurd hworker hrunning

end Ends

/-! ## Runs of the agent -/

section Runs

variable (p : Platform) (config : Config) (run : List (Op × Env)) (o : Op × Env)

/-- In a run of the agent that ends with the operation `o`, a step of the worker writes the startup
report. -/
def StartupWritten : Prop :=
  ∃ pre o', pre ++ [o'] <+: run ++ [o] ∧ o'.1 = .work ∧
    (System.init.exec p config pre).Transmits p config o' .sessionStartup

/-- If the worker writes the startup report in a run, it writes the shutdown report in the last
operation of it. -/
def Bracketed : Prop :=
  StartupWritten p config run o →
    (System.init.exec p config run).Transmits p config o .sessionShutdown

/-- **Sessions that are closed.**  In a run in which `doWork` ends and the last write returns. -/
theorem bracketed_iff (hends : (System.init.exec p config run).Ends p config o)
    (hlast : ∀ n args, o.2.vioWrite n .sessionShutdown args = .ok ()) :
    Bracketed p config run o ↔ (StartupWritten p config run o →
      (System.init.exec p config run).worker ≠ .starting ∧
        0 ≤ (System.init.exec p config run).agent.apiVersion) :=
  imp_congr_right fun _ ↦ transmits_of_ends_iff p hends hlast

end Runs

/-- An environment in which the agent has been stopped. -/
def Env.stopped : Env := { Env.idle with waitStopIsSet := true }

/-- A run in which nothing raises until the agent is stopped. -/
theorem bracketed_stopped : Bracketed .linux .default [(.work, .idle)] (.work, .stopped) :=
  (bracketed_iff .linux .default _ _ ⟨Worker.noConfusion, rfl⟩ fun _ _ ↦ rfl).mpr
    fun _ ↦ ⟨Worker.noConfusion, by decide⟩

/-- An environment in which the name of the machine cannot be read. -/
def Env.nameless : Env where
  __ := Env.idle
  dr n
    | .getMachineName => .error (.other 0)
    | q => Env.idle.dr n q

/-- `doWork` ends with the startup report written, and the shutdown report not. -/
theorem not_bracketed : System.init.Ends .linux .default (.work, .nameless) ∧
    (∀ n args, Env.nameless.vioWrite n .sessionShutdown args = .ok ()) ∧
      ¬ Bracketed .linux .default [] (.work, .nameless) := by
  have hends : System.init.Ends .linux .default (.work, .nameless) := ⟨Worker.noConfusion, rfl⟩
  have hstartup : StartupWritten .linux .default [] (.work, .nameless) :=
    ⟨[], _, List.prefix_refl _, rfl, [], .tail _ (.tail _ (.tail _ (.head _)))⟩
  refine ⟨hends, fun _ _ ↦ rfl, fun h ↦ ?_⟩
  exact ((transmits_of_ends_iff .linux hends fun _ _ ↦ rfl).mp (h hstartup)).1 rfl

end GuestAgent
