import GuestAgent.Agent.Version

/-!
# What a refresh reports

A refresh is the agent's answer to a host that has just connected, or that has just changed the
version: it reports everything once, in a fixed order.  The order is `refreshSequence`, and which
part of it reaches the channel is decided by the gate in `send`, message by message, at the version
in force after the change.

`Reports ns m` is the property of a program the order is assembled with: whatever the environment
does, `m` keeps the version and hands to the channel an initial part of the messages `ns`, less the
ones the version does not have; and if every call returns, it hands over all of them.  It is closed
under sequencing, where the lists are appended, so that the sequence of a refresh comes out of the
sequences of its parts.

`each_conforms` puts this together with what a command does to the version.
-/

set_option autoImplicit false

namespace GuestAgent

open Effect Effect.Prog AgentM Transition

/-- The messages of a list that version `v` has. -/
def allowed (v : Int) (ns : List MessageName) : List MessageName :=
  ns.filter fun name ↦ messageMinApiVersion name ≤ v

theorem allowed_append (v : Int) (ns ns' : List MessageName) :
    allowed v (ns ++ ns') = allowed v ns ++ allowed v ns' := List.filter_append ..

/-- Every call on the data retriever and on the channel returns. -/
structure Env.Calm (env : Env) : Prop where
  dr : ∀ n q, ∃ x, env.dr n q = .ok x
  vioWrite : ∀ n name args, env.vioWrite n name args = .ok ()

/-- Between two states of the agent, an initial part of the messages `ns` that version `v` has was
handed to the channel, and all of them if `complete`. -/
def Writes (v : Int) (ns : List MessageName) (complete : Prop) (s t : AgentState) : Prop :=
  ∃ ws, t.written = s.written ++ ws ∧ ws.map Sent.name <+: allowed v ns ∧
    (complete → ws.map Sent.name = allowed v ns)

theorem Writes.mono {v : Int} {ns : List MessageName} {c d : Prop} {s t : AgentState}
    (h : Writes v ns c s t) (hdc : d → c) : Writes v ns d s t := by
  obtain ⟨ws, hws, hpre, hall⟩ := h
  exact ⟨ws, hws, hpre, fun hd ↦ hall (hdc hd)⟩

/-- What is left incomplete ends the sequence. -/
theorem Writes.cut {v : Int} {ns : List MessageName} {c d : Prop} {s t : AgentState}
    (h : Writes v ns c s t) (ns' : List MessageName) (hd : ¬ d) : Writes v (ns ++ ns') d s t := by
  obtain ⟨ws, hws, hpre, -⟩ := h
  rw [Writes, allowed_append]
  exact ⟨ws, hws, hpre.trans (List.prefix_append ..), fun h ↦ absurd h hd⟩

theorem Writes.append {v : Int} {ns ns' : List MessageName} {c d : Prop} {s t r : AgentState}
    (h : Writes v ns c s t) (h' : Writes v ns' d t r) (hc : c) : Writes v (ns ++ ns') d s r := by
  obtain ⟨ws, hws, -, hall⟩ := h
  obtain ⟨ws', hws', hpre', hall'⟩ := h'
  refine ⟨ws ++ ws', by rw [hws', hws, List.append_assoc], ?_, fun hd ↦ ?_⟩ <;>
    rw [allowed_append, List.map_append, hall hc]
  · exact (List.prefix_append_right_inj _).mpr hpre'
  · rw [hall' hd]

/-- Did the program return? -/
def Returned {α : Type} (out : Except PyExn α) : Prop := ∃ x, out = .ok x

/-- The program hands the messages `ns` to the channel, as far as the version in force has them. -/
structure Reports (ns : List MessageName) {α : Type} (m : AgentM α) : Prop where
  apiVersion : ∀ p env s, (m.run (handle p env) s).2.apiVersion = s.apiVersion
  writes : ∀ p env s, Writes s.apiVersion ns (Returned (m.run (handle p env) s).1) s
    (m.run (handle p env) s).2
  returns : ∀ p env s, env.Calm → Returned (m.run (handle p env) s).1

namespace Reports

variable {α β : Type} {ns ns' : List MessageName}

/-- A program that hands nothing to the channel. -/
theorem silent {m : AgentM α}
    (h : ∀ p env s, (m.run (handle p env) s).2.apiVersion = s.apiVersion ∧
      (m.run (handle p env) s).2.written = s.written ∧
      (env.Calm → Returned (m.run (handle p env) s).1)) : Reports [] m where
  apiVersion p env s := (h p env s).1
  writes p env s := ⟨[], by simpa using (h p env s).2.1, List.nil_prefix, fun _ ↦ rfl⟩
  returns p env s := (h p env s).2.2

theorem pure (x : α) : Reports [] (Pure.pure x : AgentM α) :=
  silent fun _ _ _ ↦ ⟨rfl, rfl, fun _ ↦ ⟨x, rfl⟩⟩

theorem bind {m : AgentM α} {f : α → AgentM β} (hm : Reports ns m)
    (hf : ∀ x, Reports ns' (f x)) : Reports (ns ++ ns') (m >>= f) where
  apiVersion p env s := by
    have hs := hm.apiVersion p env s
    rw [run_bind]
    rcases hms : m.run (handle p env) s with ⟨e | x, t⟩ <;> rw [hms] at hs
    · exact hs
    · exact ((hf x).apiVersion p env t).trans hs
  writes p env s := by
    have hws := hm.writes p env s
    have hs := hm.apiVersion p env s
    rw [run_bind]
    rcases hms : m.run (handle p env) s with ⟨e | x, t⟩ <;> rw [hms] at hws hs
    · exact hws.cut ns' fun ⟨x, hx⟩ ↦ by cases hx
    · have hws' := (hf x).writes p env t
      rw [show t.apiVersion = s.apiVersion from hs] at hws'
      exact hws.append hws' ⟨x, rfl⟩
  returns p env s hcalm := by
    obtain ⟨x, hx⟩ := hm.returns p env s hcalm
    rcases hms : m.run (handle p env) s with ⟨e | y, t⟩ <;> rw [hms] at hx
    · cases hx
    · rw [run_bind_ok hms]
      exact (hf y).returns p env t hcalm

/-- Preparing a report hands nothing to the channel. -/
theorem after {m : AgentM α} {f : α → AgentM β} (hm : Reports [] m) (hf : ∀ x, Reports ns (f x)) :
    Reports ns (m >>= f) := hm.bind hf

end Reports

/-! ## The reports -/

theorem reports_log (record : LogRecord) : Reports [] (log record) :=
  .silent fun _ _ _ ↦ ⟨rfl, rfl, fun _ ↦ ⟨(), rfl⟩⟩

theorem reports_readActiveUser : Reports [] readActiveUser :=
  .silent fun _ _ s ↦ ⟨rfl, rfl, fun _ ↦ ⟨s.activeUser, rfl⟩⟩

theorem reports_writeActiveUser (user : PyStr) : Reports [] (writeActiveUser user) :=
  .silent fun _ _ _ ↦ ⟨rfl, rfl, fun _ ↦ ⟨(), rfl⟩⟩

theorem reports_dr (q : Query) : Reports [] (dr q) :=
  .silent fun p env s ↦ by
    rw [run_dr]
    exact ⟨rfl, rfl, fun hcalm ↦ hcalm.dr _ q⟩

theorem reports_send (name : MessageName) (arguments : Option Dict) :
    Reports [name] (send name arguments) where
  apiVersion p env s := by
    rw [run_send]
    split <;> rfl
  writes p env s := by
    rw [run_send, Writes, allowed]
    split
    · rename_i h
      exact ⟨[_], rfl, by simp [h], fun _ ↦ by simp [h]⟩
    · rename_i h
      exact ⟨[], by simp, by simp, fun _ ↦ by simp [h]⟩
  returns p env s hcalm := by
    rw [run_send]
    split
    · exact ⟨(), hcalm.vioWrite ..⟩
    · exact ⟨(), rfl⟩

theorem reports_sessionStartup : Reports [.sessionStartup] sessionStartup :=
  (reports_log _).after fun _ ↦ reports_send _ _

theorem reports_sendUserInfo_force : Reports [.activeUser] (sendUserInfo true) := by
  refine (reports_dr _).after fun _ ↦ (reports_log _).after fun _ ↦
    reports_readActiveUser.after fun _ ↦ ?_
  rw [Bool.or_true, if_pos rfl]
  exact (reports_send _ _).bind fun _ ↦ reports_writeActiveUser _

theorem reports_sendAppList : Reports [.applications] sendAppList :=
  (reports_dr _).after fun _ ↦ reports_send _ _

theorem reports_sendContainerList : Reports [.containers] sendContainerList :=
  (reports_dr _).after fun _ ↦ reports_send _ _

theorem reports_sendInfo : Reports [.hostName, .osVersion, .networkInterfaces] sendInfo :=
  (reports_dr _).after fun _ ↦ (reports_send .hostName _).bind fun _ ↦
    (reports_dr _).after fun _ ↦ (reports_send .osVersion _).bind fun _ ↦
      (reports_dr _).after fun _ ↦ reports_send .networkInterfaces _

theorem reports_sendDisksUsages : Reports [.disksUsage] sendDisksUsages :=
  (reports_dr _).after fun _ ↦ (reports_dr _).after fun _ ↦ reports_send _ _

theorem reports_sendFQDN : Reports [.fqdn] sendFQDN :=
  (reports_dr _).after fun _ ↦ reports_send _ _

theorem reports_sendTimezone : Reports [.timezone] sendTimezone :=
  (reports_dr _).after fun _ ↦ reports_send _ _

theorem reports_sendOsInfo : Reports [.osInfo] sendOsInfo :=
  (reports_dr _).after fun _ ↦ reports_send _ _

/-- The messages of a refresh. -/
def refreshSequence : List MessageName :=
  [.sessionStartup, .activeUser, .applications, .containers, .hostName, .osVersion,
    .networkInterfaces, .disksUsage, .fqdn, .timezone, .osInfo]

/-- **A refresh reports the sequence.** -/
theorem reports_refresh : Reports refreshSequence refresh :=
  reports_sessionStartup.bind fun _ ↦ reports_sendUserInfo_force.bind fun _ ↦
    reports_sendAppList.bind fun _ ↦ reports_sendContainerList.bind fun _ ↦
      reports_sendInfo.bind fun _ ↦ reports_sendDisksUsages.bind fun _ ↦
        reports_sendFQDN.bind fun _ ↦ reports_sendTimezone.bind fun _ ↦ reports_sendOsInfo

/-! ## What the host can rely on -/

/-- From `s` to `t`, the agent reports the sequence of a refresh at the version it arrives at. -/
def Refreshes (env : Env) (s t : AgentState) : Prop :=
  Writes t.apiVersion refreshSequence env.Calm s t

/-- What `api-version` with the value `x` does: it sets the version where `int` succeeds, and
refreshes exactly when that changed it. -/
structure SetsVersion (x : PyObj) (env : Env) (s t : AgentState) : Prop where
  ok : ∀ n, x.toInt = .ok n → t.apiVersion = min n maxSupportedApiVersion
  error : ∀ e, x.toInt = .error e → t.apiVersion = s.apiVersion
  same : t.apiVersion = s.apiVersion → t.written = s.written
  changed : t.apiVersion ≠ s.apiVersion → Refreshes env s t

/-- What the host can rely on when an operation takes the agent from `s` to `t`. -/
structure Conforms (s : AgentState) (o : Op × Env) (t : AgentState) : Prop where
  /-- The gate holds for every message handed to the channel. -/
  gate : ∃ ws, t.written = s.written ++ ws ∧
    ∀ w ∈ ws, messageMinApiVersion w.name ≤ w.apiVersion
  apiVersion : ∀ name args x, o.1 = .command name args → Command.ofObj name = some .apiVersion →
    args.get? (key "apiVersion") = some x → SetsVersion x o.2 s t
  /-- `refresh` without a version disables versioning, and every `refresh` refreshes. -/
  refresh : ∀ name args, o.1 = .command name args → Command.ofObj name = some .refresh →
    t.apiVersion = (if 0 < s.apiVersion ∧ args.contains (key "apiVersion") = false
      then disabledApiValue else s.apiVersion) ∧ Refreshes o.2 s t
  /-- Nothing else changes the version. -/
  others : (∀ name args, o.1 = .command name args → Command.ofObj name ≠ some .refresh ∧
      (Command.ofObj name = some .apiVersion → args.get? (key "apiVersion") = none)) →
    t.apiVersion = s.apiVersion

theorem nextVersion_refresh {name : PyObj} {args : Dict} {v : Int}
    (hname : Command.ofObj name = some .refresh) :
    nextVersion (.command name args) v =
      if 0 < v ∧ args.contains (key "apiVersion") = false then disabledApiValue else v := by
  simp only [nextVersion, hname]
  cases args.contains (key "apiVersion") with
  | true => simp
  | false =>
    by_cases hpos : 0 < v
    · simp [hpos, disabledApiValue, hpos.le]
    · simp [hpos, disabledApiValue, not_lt.mp hpos]

theorem nextVersion_of_other {op : Op} {v : Int}
    (h : ∀ name args, op = .command name args → Command.ofObj name ≠ some .refresh ∧
      (Command.ofObj name = some .apiVersion → args.get? (key "apiVersion") = none)) :
    nextVersion op v = v := by
  cases op with
  | command name args =>
    obtain ⟨hr, hv⟩ := h name args rfl
    simp only [nextVersion]
    split
    · rename_i hname
      rw [hv hname]
      rfl
    · rename_i hname
      exact absurd hname hr
    · rfl
  | _ => rfl

section Commands

variable (p : Platform) (config : Config) (sys : System) (env : Env)

/-- A refresh from a state that differs from `s` only in its version and its log. -/
theorem refreshes_of_written {s t : AgentState} (hw : t.written = s.written) :
    Refreshes env s (refresh.run (handle p env) t).2 := by
  have hrun := (reports_refresh.writes p env t).mono (reports_refresh.returns p env t)
  rwa [Writes, hw, ← reports_refresh.apiVersion p env t] at hrun

theorem onApiVersion_setsVersion {args : Dict} {x : PyObj}
    (hx : args.get? (key "apiVersion") = some x) {s₀ s : AgentState}
    (hs : s.apiVersion = s₀.apiVersion) (hw : s.written = s₀.written) :
    SetsVersion x env s₀ ((onApiVersion args).run (handle p env) s).2 := by
  have hv : ((onApiVersion args).run (handle p env) s).2.apiVersion =
      loadVersion x s₀.apiVersion := by
    simpa [hx, hs] using (onApiVersion_moves p env args s).apiVersion
  refine ⟨fun n hn ↦ by rw [hv, loadVersion, hn],
    fun e he ↦ by rw [hv, loadVersion, he], ?_, ?_⟩ <;>
    rw [hv] <;> intro hload <;>
    obtain ⟨rs, -, ⟨e, hrun, herr⟩ | hrun⟩ := run_onApiVersion p env hx s <;> rw [hs] at hrun
  · rw [hrun]
    exact hw
  · rw [hrun, if_neg (not_not.mpr hload.symm)]
    exact hw
  · -- where `int` raises, the version is not changed
    refine absurd ?_ hload
    rcases h : x.toInt with e' | n
    · rw [loadVersion, h]
    · exact absurd h (herr n)
  · rw [hrun, if_pos hload.symm]
    exact refreshes_of_written p env hw

theorem refreshCommand_conforms (args : Dict) (s : AgentState) :
    Refreshes env s ((refreshCommand args).run (handle p env) s).2 := by
  obtain ⟨rs, -, hrun⟩ := run_refreshCommand p env args s
  rw [hrun]
  exact refreshes_of_written p env rfl

theorem step_conforms (o : Op × Env) :
    Conforms sys.agent o (System.step p config sys o).agent := by
  obtain ⟨hv, ⟨ws, hws, hgate⟩, -⟩ := step_moves p config sys o
  obtain ⟨op, env⟩ := o
  refine ⟨⟨ws, hws, fun w hw ↦ ?_⟩, ?_, ?_, fun hother ↦ ?_⟩
  · obtain ⟨hwv, hmin⟩ := hgate w hw
    rwa [hwv]
  · rintro name args x rfl hname hx
    rw [step_command, parseCommand, run_bind_ok (run_log ..), hname]
    exact onApiVersion_setsVersion p env hx rfl rfl
  · rintro name args rfl hname
    refine ⟨?_, ?_⟩
    · rw [hv, nextVersion_refresh hname]
    · rw [step_command, parseCommand, run_bind_ok (run_log ..), hname]
      exact refreshCommand_conforms p env args _
  · rw [hv, nextVersion_of_other hother]

/-- **Every operation of a run conforms**, from any state of the agent and in any environment. -/
theorem each_conforms (run : List (Op × Env)) :
    Each (System.step p config)
      (fun sys o ↦ Conforms sys.agent o (System.step p config sys o).agent) sys run :=
  each_of_forall (fun sys o _ ↦ step_conforms p config sys o) fun _ _ ↦ trivial

end Commands
end GuestAgent
