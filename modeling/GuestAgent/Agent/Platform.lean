import GuestAgent.Agent.Lifecycle
import GuestAgent.Agent.Pieces
import GuestAgent.Library.Transition

/-!
# One protocol on two platforms

The logic is shared by the Linux and the Windows agent, and talks to each platform through a data
retriever, a command handler and a hooks directory.  This file runs the two agents side by side on
one sequence of host commands, with data retrievers that give the same answers and with handlers
all of whose methods return, and asks whether the host could tell them apart.

There are two ways in which it can, and `always_agree_iff` says that there is no third.

* The handler of one platform lacks a method the logic calls.  `set-number-of-cpus` calls
  `set_number_of_cpus`; the Windows handler has a method of another spelling, and the report that
  follows the call is never sent.
* The hooks directories differ.  A lifecycle event is answered where its hooks settle, and they may
  settle on one platform and not on the other.

For every other command the two agents run the same pieces, and `Effect.Built.simulate` carries the
agreement through.
-/

set_option autoImplicit false

namespace GuestAgent

open Effect Effect.Prog AgentM Transition

/-! ## Two agents side by side -/

/-- What the two agents meet during one command: the same answers from the data retriever and the
channel, and a hooks directory each. -/
structure TwinEnv where
  dr : ℕ → (q : Query) → q.Ans
  vioWrite : ℕ → MessageName → Dict → Except PyExn Unit
  listdir : Platform → HookEvent → Option (List Bytes)
  popen : Platform → HookPath → HookOutcome

/-- The environment of one of the two agents.  Every method its handler has returns. -/
def TwinEnv.env (e : TwinEnv) (p : Platform) : Env where
  dr n q := .ok (e.dr n q)
  vioWrite := e.vioWrite
  commandHandler _ := .ok ()
  listdir := e.listdir p
  popen := e.popen p
  waitStopIsSet := false

/-- A host command, with what the two agents meet while they run it. -/
structure HostCommand where
  name : PyObj
  args : Dict
  env : TwinEnv

structure Twins where
  linux : System
  windows : System

def Twins.init : Twins := ⟨.init, .init⟩

/-- Both agents run a command to its end. -/
def Twins.step (config : Config) (t : Twins) (c : HostCommand) : Twins where
  linux := t.linux.step .linux config (.command c.name c.args, c.env.env .linux)
  windows := t.windows.step .windows config (.command c.name c.args, c.env.env .windows)

/-- The host cannot tell the two states apart: the same messages were handed to the channel, and
what later messages depend on is the same. -/
structure Alike (s t : AgentState) : Prop where
  apiVersion : s.apiVersion = t.apiVersion
  activeUser : s.activeUser = t.activeUser
  written : s.written = t.written

def Twins.Agree (t : Twins) : Prop := Alike t.linux.agent t.windows.agent

/-- The command is one the two agents treat alike at version `v`. -/
def HostCommand.Portable (c : HostCommand) (v : Int) : Prop :=
  match Command.ofObj c.name with
  | some .setNumberOfCpus => ¬ (((c.args.get? (key "count")).getD (.int 0)).gtZero = true ∧ 1 ≤ v)
  | some .lifecycleEvent =>
    c.args.contains (key "reply_id") = true ∧ 3 ≤ v →
      settles (c.env.env .linux) (c.args.get? (key "type")) =
        settles (c.env.env .windows) (c.args.get? (key "type"))
  | _ => True

/-! ## The pieces both agents run alike -/

/-- The operations the two platforms answer alike. -/
def Act.IsShared (a : Act) : Prop :=
  a.IsReport ∨ match a with
    | writeApiVersion _ => True
    | commandHandler c => c.method ≠ .setNumberOfCpus
    | _ => False

theorem Act.IsReport.isShared (a : Act) (h : a.IsReport) : a.IsShared := .inl h

/-- In lockstep: alike, with as many calls made. -/
structure InStep (s t : AgentState) : Prop extends Alike s t where
  calls : s.calls = t.calls

/-- A method the logic calls is one both handlers have, with one exception. -/
theorem method_mem_commandHandler {c : HandlerCall} (hc : c.method ≠ .setNumberOfCpus)
    (p : Platform) : c.method ∈ p.commandHandler := by
  cases c with
  | setNumberOfCpus count => exact absurd rfl hc
  | _ => cases p <;>
    simp [HandlerCall.method, Platform.commandHandler, commandHandlerLinux, commandHandlerWin]

section Lockstep

variable (e : TwinEnv)

theorem shared_inStep {a : Act} (ha : a.IsShared) {s t : AgentState} (h : InStep s t) :
    (handle .linux (e.env .linux) a s).1 = (handle .windows (e.env .windows) a t).1 ∧
      InStep (handle .linux (e.env .linux) a s).2 (handle .windows (e.env .windows) a t).2 := by
  obtain ⟨⟨hv, hu, hw⟩, hn⟩ := h
  cases a with
  | readApiVersion => exact ⟨hv, ⟨hv, hu, hw⟩, hn⟩
  | writeApiVersion version => exact ⟨rfl, ⟨rfl, hu, hw⟩, hn⟩
  | readActiveUser => exact ⟨hu, ⟨hv, hu, hw⟩, hn⟩
  | writeActiveUser user => exact ⟨rfl, ⟨hv, rfl, hw⟩, hn⟩
  | writeDesktopLocked locked => exact ⟨rfl, ⟨hv, hu, hw⟩, hn⟩
  | dr q =>
    have hans : (e.env .linux).dr s.calls q = (e.env .windows).dr t.calls q := by rw [hn]; rfl
    exact ⟨hans, ⟨hv, hu, hw⟩, congrArg (· + 1) hn⟩
  | commandHandler c =>
    have hc : c.method ≠ .setNumberOfCpus := ha.resolve_left id
    rw [handle, handle, if_pos (method_mem_commandHandler hc _),
      if_pos (method_mem_commandHandler hc _)]
    exact ⟨rfl, ⟨hv, hu, hw⟩, hn⟩
  | waitStopIsSet => exact ⟨rfl, ⟨hv, hu, hw⟩, hn⟩
  | log record => exact ⟨rfl, ⟨hv, hu, hw⟩, hn⟩
  | _ => exact (ha.elim id id).elim

theorem send_inStep (name : MessageName) (arguments : Option Dict) {s t : AgentState}
    (h : InStep s t) :
    ((send name arguments).run (handle .linux (e.env .linux)) s).1 =
        ((send name arguments).run (handle .windows (e.env .windows)) t).1 ∧
      InStep ((send name arguments).run (handle .linux (e.env .linux)) s).2
        ((send name arguments).run (handle .windows (e.env .windows)) t).2 := by
  obtain ⟨⟨hv, hu, hw⟩, hn⟩ := h
  rw [run_send, run_send, hv, hn, hw]
  split
  · exact ⟨rfl, ⟨rfl, hu, rfl⟩, rfl⟩
  · exact ⟨rfl, ⟨rfl, hu, rfl⟩, rfl⟩

/-- **The two agents stay in step through what is made of shared operations.** -/
theorem MadeOf.inStep {α : Type} {m : AgentM α} (hm : MadeOf Act.IsShared m) {s t : AgentState}
    (h : InStep s t) :
    InStep (m.run (handle .linux (e.env .linux)) s).2
      (m.run (handle .windows (e.env .windows)) t).2 := by
  refine (Built.simulate (fun α m hm s t hst ↦ ?_) hm s t h).2
  cases hm with
  | send name arguments => exact send_inStep e name arguments hst
  | perform a ha =>
    obtain ⟨hans, hnext⟩ := shared_inStep e ha hst
    exact ⟨congrArg Except.ok hans, hnext⟩

/-! ## The two commands that are not -/

theorem setCpusCommand_linux (args : Dict) (s : AgentState) :
    Hands (if ((args.get? (key "count")).getD (.int 0)).gtZero = true ∧ 1 ≤ s.apiVersion
        then [⟨.numberOfCpus, [(key "count", e.dr s.calls .getNumberOfCPUs)], s.apiVersion⟩]
        else []) s
      ((setCpusCommand args).run (handle .linux (e.env .linux)) s).2 := by
  rw [setCpusCommand]
  set count := (args.get? (key "count")).getD (.int 0)
  by_cases hpos : count.gtZero = true
  · have hmem : (HandlerCall.setNumberOfCpus count).method ∈ Platform.linux.commandHandler := by
      show Method.setNumberOfCpus ∈ commandHandlerLinux
      decide
    have hcall : (commandHandler (.setNumberOfCpus count)).run (handle .linux (e.env .linux)) s =
        (.ok (), { s with handled := s.handled ++ [.setNumberOfCpus count] }) :=
      (run_commandHandler ..).trans (if_pos hmem)
    have hdr : ∀ t : AgentState, (dr .getNumberOfCPUs).run (handle .linux (e.env .linux)) t =
        (.ok (e.dr t.calls .getNumberOfCPUs), { t with calls := t.calls + 1 }) := fun t ↦ run_dr ..
    rw [if_pos hpos, run_bind_ok hcall, sendNumberOfCPUs, run_bind_ok (hdr _)]
    simp only [hpos, true_and]
    set t : AgentState :=
      { s with handled := s.handled ++ [.setNumberOfCpus count], calls := s.calls + 1 }
    have hst : Hands [] s t := ⟨rfl, rfl, (List.append_nil _).symm⟩
    exact hst.trans (send_hands .linux (e.env .linux) .numberOfCpus
      (some [(key "count", e.dr s.calls .getNumberOfCPUs)]) t)
  · rw [if_neg hpos, if_neg fun h ↦ hpos h.1]
    exact .refl s

/-- The Windows handler has no `set_number_of_cpus`: the call raises. -/
theorem setCpusCommand_windows (args : Dict) (s : AgentState) :
    Hands [] s ((setCpusCommand args).run (handle .windows (e.env .windows)) s).2 := by
  rw [setCpusCommand]
  set count := (args.get? (key "count")).getD (.int 0)
  split
  · have hmem : (HandlerCall.setNumberOfCpus count).method ∉ Platform.windows.commandHandler := by
      show Method.setNumberOfCpus ∉ commandHandlerWin
      decide
    have hcall : (commandHandler (.setNumberOfCpus count)).run (handle .windows (e.env .windows))
        s =
        (.error .attributeError, s) := (run_commandHandler ..).trans (if_neg hmem)
    rw [run_bind_error hcall]
    exact .refl s
  · exact .refl s

/-- Handing on different messages is what the host can tell. -/
theorem alike_iff_of_hands {ws ws' : List Sent} {s s' t t' : AgentState} (h : Alike s t)
    (hs : Hands ws s s') (ht : Hands ws' t t') : Alike s' t' ↔ ws = ws' := by
  constructor
  · intro h'
    have hw := h'.written
    rwa [hs.written, ht.written, h.written, List.append_cancel_left_eq] at hw
  · rintro rfl
    exact ⟨by rw [hs.apiVersion, ht.apiVersion, h.apiVersion],
      by rw [hs.activeUser, ht.activeUser, h.activeUser],
      by rw [hs.written, ht.written, h.written]⟩

end Lockstep

/-- A lifecycle event is answered alike where its hooks settle on both platforms or on neither. -/
theorem lifecycleReply_eq_iff (env env' : Env) (args : Dict) (v : Int) :
    lifecycleReply env args v = lifecycleReply env' args v ↔
      (args.contains (key "reply_id") = true ∧ 3 ≤ v →
        settles env (args.get? (key "type")) = settles env' (args.get? (key "type"))) := by
  rw [lifecycleReply, lifecycleReply, replyMessages, Dict.contains]
  rcases args.get? (key "reply_id") with _ | id
  · simp
  · by_cases hv : 3 ≤ v
    · cases settles env (args.get? (key "type")) <;>
        cases settles env' (args.get? (key "type")) <;> simp [hv]
    · simp [hv]

theorem parseCommand_alike_iff (c : HostCommand) {s t : AgentState} (h : InStep s t) :
    Alike ((parseCommand c.name c.args).run (handle .linux (c.env.env .linux)) s).2
        ((parseCommand c.name c.args).run (handle .windows (c.env.env .windows)) t).2 ↔
      c.Portable s.apiVersion := by
  have hlog : ∀ r, Alike { s with records := s.records ++ [r] }
      { t with records := t.records ++ [r] } :=
    fun _ ↦ ⟨h.apiVersion, h.activeUser, h.written⟩
  by_cases hcpus : Command.ofObj c.name = some .setNumberOfCpus
  · simp only [HostCommand.Portable, parseCommand, hcpus, run_bind_ok (run_log ..)]
    refine (alike_iff_of_hands (hlog _) (setCpusCommand_linux ..)
      (setCpusCommand_windows ..)).trans ?_
    split <;> simp_all
  · by_cases hevent : Command.ofObj c.name = some .lifecycleEvent
    · simp only [HostCommand.Portable, parseCommand, hevent, run_bind_ok (run_log ..)]
      refine (alike_iff_of_hands (hlog _) (lifecycleEvent_hands ..)
        (lifecycleEvent_hands ..)).trans ?_
      rw [← lifecycleReply_eq_iff]
      rw [← h.apiVersion]
    · refine iff_of_true ?_ ?_
      · refine (MadeOf.inStep c.env (madeOf_parseCommand Act.IsReport.isShared (fun _ hc ↦ .inr hc)
          (fun _ ↦ ?_) (fun _ ↦ ?_) (fun hc ↦ absurd hc hcpus) fun he ↦ absurd he hevent) h).toAlike
        · exact madeOf_onApiVersion Act.IsReport.isShared (fun _ ↦ .inr trivial) _
        · exact madeOf_refreshCommand Act.IsReport.isShared (fun _ ↦ .inr trivial) _
      · rw [HostCommand.Portable]
        split
        · rename_i hc; exact absurd hc hcpus
        · rename_i he; exact absurd he hevent
        · trivial

theorem step_agree_iff (config : Config) (t : Twins) (c : HostCommand) (h : t.Agree) :
    (t.step config c).Agree ↔ c.Portable t.linux.agent.apiVersion := by
  rw [Twins.Agree, Twins.step, step_command, step_command]
  exact parseCommand_alike_iff c ⟨⟨h.apiVersion, h.activeUser, h.written⟩, rfl⟩

/-- **The host can tell the platforms apart only by the two commands.** -/
theorem always_agree_iff (config : Config) (run : List HostCommand) :
    Always (Twins.step config) Twins.Agree .init run ↔
      Each (Twins.step config) (fun t c ↦ c.Portable t.linux.agent.apiVersion) .init run :=
  always_iff_each (step_agree_iff config) ⟨rfl, rfl, rfl⟩ run

/-- Nothing to report, and no hooks, on either platform. -/
def TwinEnv.idle : TwinEnv where
  dr _ q := match q with
    | .getActiveUser => key "None"
    | .getTimezoneInfo => (.none, .none)
    | .getOsInfo => none
    | .getAvailableRAM | .getMemoryStats | .getApplications | .getContainerList | .getMachineName
    | .getOsVersion | .getAllNetworkInterfaces | .getFQDN | .getDisksUsage | .getDiskMapping
    | .getNumberOfCPUs => PyObj.none
  vioWrite _ _ _ := .ok ()
  listdir _ _ := some []
  popen _ _ := .exited 0 [] []

/-- A host that negotiates version 3 and then adds a CPU. -/
def addCpuRun : List HostCommand :=
  [⟨.ofString "api-version", [(key "apiVersion", .int 3)], .idle⟩,
   ⟨.ofString "set-number-of-cpus", [(key "count", .int 2)], .idle⟩]

/-- The host can tell the platforms apart. -/
theorem not_always_agree : ¬ Always (Twins.step .default) Twins.Agree .init addCpuRun := by
  rintro ⟨-, -, h⟩
  exact absurd (congrArg List.length h.written) (by decide)

end GuestAgent
