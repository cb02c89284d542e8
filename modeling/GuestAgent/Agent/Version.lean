import GuestAgent.Library.Transition
import GuestAgent.Agent.Pieces

/-!
# The version in force

The host and the agent agree on a version of their protocol, and the agent holds back the messages
the version does not have yet.  The version is a number the host may set at any time.

What one operation of the agent can do to the version, and to the messages judged by it, is said
once, by `Moves v s t`: the agent goes from `s` to `t`, where the version in force is `v`, and every
message handed to the channel on the way, and every message held back, was judged at `v`.
`step_moves` says that an operation moves the agent to the version `nextVersion` computes.  That
function is an abstract model of the agent, a register that a command may load: it depends on the
operation and the version before it, and on nothing the environment does.

The register has an upper bound, which loading it respects, and no lower bound.  A negative version
is below the minimum version of every message, so the agent falls silent; `always_audible_iff` says
that this is the only way it can.
-/

set_option autoImplicit false

namespace GuestAgent

open Effect Effect.Prog AgentM Transition

/-! ## What one operation can do -/

/-- The agent goes from `s` to `t`, where the version in force is `v`: the messages handed to the
channel on the way are allowed at `v`, and the ones held back are not. -/
structure Moves (v : Int) (s t : AgentState) : Prop where
  apiVersion : t.apiVersion = v
  written : ∃ ws, t.written = s.written ++ ws ∧
    ∀ w ∈ ws, w.apiVersion = v ∧ messageMinApiVersion w.name ≤ v
  records : ∃ rs, t.records = s.records ++ rs ∧
    ∀ name v', .notSupported name v' ∈ rs → v' = v ∧ v < messageMinApiVersion name

theorem Moves.refl {v : Int} {s : AgentState} (h : s.apiVersion = v) : Moves v s s :=
  ⟨h, ⟨[], by simp⟩, ⟨[], by simp⟩⟩

theorem Moves.trans {v : Int} {s t r : AgentState} (h : Moves v s t) (h' : Moves v t r) :
    Moves v s r := by
  obtain ⟨-, ⟨ws, hws, hw⟩, ⟨rs, hrs, hr⟩⟩ := h
  obtain ⟨hv, ⟨ws', hws', hw'⟩, ⟨rs', hrs', hr'⟩⟩ := h'
  refine ⟨hv, ⟨ws ++ ws', by rw [hws', hws, List.append_assoc], fun w hmem ↦ ?_⟩,
    ⟨rs ++ rs', by rw [hrs', hrs, List.append_assoc], fun name v' hmem ↦ ?_⟩⟩
  · exact (List.mem_append.mp hmem).elim (hw w) (hw' w)
  · exact (List.mem_append.mp hmem).elim (hr name v') (hr' name v')

/-- The version stays as it is. -/
def Steady (s t : AgentState) : Prop := Moves s.apiVersion s t

instance : IsPreorder AgentState Steady where
  refl _ := Moves.refl rfl
  trans _ _ _ h h' := Moves.trans h (h.apiVersion ▸ h')

/-- Setting the version and logging. -/
theorem Moves.of_records (v : Int) (s : AgentState) {rs : List LogRecord}
    (hrep : ∀ r ∈ rs, (Act.log r).IsReport) :
    Moves v s { s with apiVersion := v, records := s.records ++ rs } :=
  ⟨rfl, ⟨[], by simp⟩, ⟨rs, rfl, fun _ _ hmem ↦ (hrep _ hmem).elim⟩⟩

section Steps

variable (p : Platform) (env : Env)

theorem send_steady (name : MessageName) (arguments : Option Dict) (s : AgentState) :
    Steady s ((send name arguments).run (handle p env) s).2 := by
  rw [run_send]
  split
  · rename_i h
    exact ⟨rfl, ⟨[_], rfl, by simpa using h⟩, ⟨[_], rfl, by simp⟩⟩
  · rename_i h
    refine ⟨rfl, ⟨[], by simp⟩, ⟨[_], rfl, fun name' v' hmem ↦ ?_⟩⟩
    rw [List.mem_singleton] at hmem
    cases hmem
    exact ⟨rfl, by omega⟩

/-- An operation that neither sets the version nor writes to the channel leaves both alone. -/
theorem quiet_steady {a : Act} (ha : a.IsQuiet) (s : AgentState) :
    Steady s (handle p env a s).2 := by
  have keep : ∀ t : AgentState, t.apiVersion = s.apiVersion → t.written = s.written →
      t.records = s.records → Steady s t :=
    fun t hv hw hr ↦ ⟨hv, ⟨[], by simp [hw]⟩, ⟨[], by simp [hr]⟩⟩
  cases a with
  | writeApiVersion v => exact (ha.elim id id).elim
  | vioWrite name args => exact (ha.elim id id).elim
  | log r => exact Moves.of_records s.apiVersion s (by simpa using ha.resolve_right id)
  | commandHandler c =>
    rw [handle]
    split <;> exact keep _ rfl rfl rfl
  | _ => exact keep _ rfl rfl rfl

theorem MadeOf.steady {α : Type} {m : AgentM α} (hm : MadeOf Act.IsQuiet m) (s : AgentState) :
    Steady s (m.run (handle p env) s).2 := by
  refine Built.respects (fun α m hm s ↦ ?_) hm s
  cases hm with
  | send name arguments => exact send_steady p env name arguments s
  | perform a ha => exact quiet_steady p env ha s

/-! ## The version register -/

/-- The version after `setAPIVersion version`. -/
def loadVersion (version : PyObj) (v : Int) : Int :=
  match version.toInt with
  | .ok n => min n maxSupportedApiVersion
  | .error _ => v

/-- The version after an operation.  A command loads it, or lowers it; nothing else touches it. -/
def nextVersion : Op → Int → Int
  | .command name args, v =>
    match Command.ofObj name with
    | some .apiVersion => ((args.get? (key "apiVersion")).map (loadVersion · v)).getD v
    | some .refresh => if args.contains (key "apiVersion") then v else min v disabledApiValue
    | _ => v
  | _, v => v

theorem loadVersion_le (version : PyObj) {v : Int} (hv : v ≤ maxSupportedApiVersion) :
    loadVersion version v ≤ maxSupportedApiVersion := by
  rw [loadVersion]
  split
  · exact min_le_right _ _
  · exact hv

theorem nextVersion_le (op : Op) {v : Int} (hv : v ≤ maxSupportedApiVersion) :
    nextVersion op v ≤ maxSupportedApiVersion := by
  cases op with
  | command name args =>
    simp only [nextVersion]
    split
    · cases args.get? (key "apiVersion") with
      | none => exact hv
      | some x => exact loadVersion_le x hv
    · split
      · exact hv
      · exact (min_le_left _ _).trans hv
    · exact hv
  | _ => exact hv

theorem run_storeAPIVersion (old n : Int) (s : AgentState) :
    ∃ r, (Act.log r).IsReport ∧ (storeAPIVersion old n).run (handle p env) s =
      (.ok (), { s with apiVersion := n, records := s.records ++ [r] }) := by
  rw [storeAPIVersion, run_bind_ok (run_readApiVersion ..)]
  split
  · rename_i h
    exact ⟨.apiVersionAlreadySet n, trivial, by rw [run_log, ← h]⟩
  · exact ⟨.apiVersionUpdated old n, trivial, rfl⟩

theorem run_setIntAPIVersion (old n : Int) (s : AgentState) :
    ∃ rs, (∀ r ∈ rs, (Act.log r).IsReport) ∧ (setIntAPIVersion old n).run (handle p env) s =
      (.ok (), { s with apiVersion := min n maxSupportedApiVersion,
                        records := s.records ++ rs }) := by
  rw [setIntAPIVersion]
  split
  · rename_i h
    rw [run_bind_ok (run_log ..), min_eq_right h.le]
    obtain ⟨r, hr, hrun⟩ := run_storeAPIVersion p env old maxSupportedApiVersion
      { s with records := s.records ++ [.apiVersionTooHigh n] }
    exact ⟨[.apiVersionTooHigh n, r], by simpa using ⟨trivial, hr⟩, by simp [hrun]⟩
  · rename_i h
    rw [min_eq_left (not_lt.mp h)]
    obtain ⟨r, hr, hrun⟩ := run_storeAPIVersion p env old n s
    exact ⟨[r], by simpa using hr, hrun⟩

/-- `setAPIVersion` loads the version and logs.  It may raise when `int` does. -/
theorem run_setAPIVersion (version : PyObj) (s : AgentState) :
    ∃ out rs, (∀ r ∈ rs, (Act.log r).IsReport) ∧ (setAPIVersion version).run (handle p env) s =
      (out, { s with apiVersion := loadVersion version s.apiVersion,
                     records := s.records ++ rs }) ∧
      ∀ n, version.toInt = .ok n → out = .ok () := by
  rw [setAPIVersion, run_bind_ok (run_readApiVersion ..)]
  rcases h : version.toInt with e | n <;> simp only [loadVersion, h]
  · split
    · exact ⟨.ok (), [.invalidApiVersion version], by simp [Act.IsReport], rfl, fun _ _ ↦ rfl⟩
    · exact ⟨.error e, [], by simp, by simp, fun n hn ↦ by cases hn⟩
  · obtain ⟨rs, hrep, hrs⟩ := run_setIntAPIVersion p env s.apiVersion n s
    exact ⟨.ok (), rs, hrep, hrs, fun _ _ ↦ rfl⟩

/-- `refresh` lowers a positive version, unless its arguments have one, and then refreshes. -/
theorem run_refreshCommand (args : Dict) (s : AgentState) :
    ∃ rs, (∀ r ∈ rs, (Act.log r).IsReport) ∧ (refreshCommand args).run (handle p env) s =
      refresh.run (handle p env)
        { s with apiVersion := if args.contains (key "apiVersion") then s.apiVersion
                   else min s.apiVersion disabledApiValue,
                 records := s.records ++ rs } := by
  rw [refreshCommand, run_bind_ok (run_readApiVersion ..)]
  split
  · rename_i h
    obtain ⟨hmiss, hpos⟩ : args.contains (key "apiVersion") = false ∧ s.apiVersion > 0 := by
      simpa using h
    obtain ⟨out, rs, hrep, hrun, hok⟩ := run_setAPIVersion p env (.int disabledApiValue)
      { s with records := s.records ++ [.versioningNotSupported] }
    obtain rfl := hok disabledApiValue rfl
    refine ⟨.versioningNotSupported :: rs, by simpa [Act.IsReport] using hrep, ?_⟩
    have hmin : min s.apiVersion disabledApiValue = disabledApiValue := min_eq_right hpos.le
    rw [run_bind_ok (run_log ..), run_bind_ok hrun]
    have hload : loadVersion (.int disabledApiValue) s.apiVersion = disabledApiValue := rfl
    simp [hmiss, hmin, hload]
  · rename_i h
    refine ⟨[], by simp, ?_⟩
    cases hmiss : args.contains (key "apiVersion") with
    | true => simp
    | false =>
      have hle : s.apiVersion ≤ 0 := by simpa [hmiss] using h
      have hmin : min s.apiVersion disabledApiValue = s.apiVersion := min_eq_left hle
      simp [hmin]

/-- `api-version` loads the version and refreshes when that changed it. -/
theorem run_onApiVersion {args : Dict} {x : PyObj} (hx : args.get? (key "apiVersion") = some x)
    (s : AgentState) :
    ∃ rs, (∀ r ∈ rs, (Act.log r).IsReport) ∧
      ((∃ e, (onApiVersion args).run (handle p env) s =
          (.error e, { s with apiVersion := loadVersion x s.apiVersion,
                              records := s.records ++ rs }) ∧ ∀ n, x.toInt ≠ .ok n) ∨
        (onApiVersion args).run (handle p env) s =
          (if s.apiVersion ≠ loadVersion x s.apiVersion then refresh else pure ()).run
            (handle p env)
            { s with apiVersion := loadVersion x s.apiVersion, records := s.records ++ rs }) := by
  obtain ⟨out, rs, hrep, hrun, hok⟩ := run_setAPIVersion p env x s
  refine ⟨rs, hrep, ?_⟩
  have hitem : args.getItem (key "apiVersion") = .ok x := by rw [Dict.getItem, hx]
  rw [onApiVersion, run_bind_ok (run_readApiVersion ..), hitem, run_bind_ok (run_ofExcept ..)]
  rcases out with e | _
  · rw [run_bind_error hrun]
    exact .inl ⟨e, rfl, fun n hn ↦ by cases hok n hn⟩
  · rw [run_bind_ok hrun, run_bind_ok (run_readApiVersion ..)]
    exact .inr rfl

/-- An `api-version` command without a version raises. -/
theorem run_onApiVersion_none {args : Dict} (hx : args.get? (key "apiVersion") = none)
    (s : AgentState) : (onApiVersion args).run (handle p env) s = (.error .keyError, s) := by
  rw [onApiVersion, run_bind_ok (run_readApiVersion ..), Dict.getItem, hx]
  rfl

/-! ## One operation -/

theorem refresh_moves {v : Int} {s : AgentState} (h : s.apiVersion = v) :
    Moves v s (refresh.run (handle p env) s).2 :=
  h ▸ (madeOf_refresh Act.IsReport.isQuiet).steady p env s

theorem onApiVersion_moves (args : Dict) (s : AgentState) :
    Moves (((args.get? (key "apiVersion")).map (loadVersion · s.apiVersion)).getD s.apiVersion) s
      ((onApiVersion args).run (handle p env) s).2 := by
  cases hx : args.get? (key "apiVersion") with
  | none => rw [run_onApiVersion_none p env hx]; exact .refl rfl
  | some x =>
    obtain ⟨rs, hrep, ⟨e, hrun, -⟩ | hrun⟩ := run_onApiVersion p env hx s
    · rw [hrun]; exact .of_records _ s hrep
    · rw [hrun]
      refine (Moves.of_records _ s hrep).trans ?_
      split
      · exact refresh_moves p env rfl
      · exact .refl rfl

theorem refreshCommand_moves (args : Dict) (s : AgentState) :
    Moves (if args.contains (key "apiVersion") then s.apiVersion
        else min s.apiVersion disabledApiValue) s
      ((refreshCommand args).run (handle p env) s).2 := by
  obtain ⟨rs, hrep, hrun⟩ := run_refreshCommand p env args s
  rw [hrun]
  exact (Moves.of_records _ s hrep).trans (refresh_moves p env rfl)

theorem parseCommand_moves (name : PyObj) (args : Dict) (s : AgentState) :
    Moves (nextVersion (.command name args) s.apiVersion) s
      ((parseCommand name args).run (handle p env) s).2 := by
  by_cases hset : Command.ofObj name = some .apiVersion ∨ Command.ofObj name = some .refresh
  · -- the version is not touched before the record of the command
    have hlog : ∀ {v : Int} {m : AgentM Unit},
        (∀ t : AgentState, t.apiVersion = s.apiVersion →
          Moves v t (m.run (handle p env) t).2) →
        Moves v s ((log (.receivedCommand name) >>= fun _ ↦ m).run (handle p env) s).2 := by
      intro v m hm
      rw [run_bind_ok (run_log ..)]
      obtain ⟨hv, hw, rs, hrs, hr⟩ :=
        hm { s with records := s.records ++ [.receivedCommand name] } rfl
      exact ⟨hv, hw, .receivedCommand name :: rs, by simpa using hrs, by simpa using hr⟩
    rcases hset with h | h <;> simp only [parseCommand, nextVersion, h] <;>
      refine hlog fun t ht ↦ ?_
    · exact ht ▸ onApiVersion_moves p env args t
    · exact ht ▸ refreshCommand_moves p env args t
  · obtain ⟨hv, hr⟩ := not_or.mp hset
    have hnext : nextVersion (.command name args) s.apiVersion = s.apiVersion := by
      simp only [nextVersion]
    rw [hnext]
    exact (madeOf_quietCommand args hv hr).steady p env s

theorem program_moves (config : Config) (w : Worker) (op : Op) (s : AgentState) :
    Moves (nextVersion op s.apiVersion) s ((op.program config w).run (handle p env) s).2 := by
  have steady : ∀ m : AgentM Worker, MadeOf Act.IsQuiet m →
      Moves s.apiVersion s (m.run (handle p env) s).2 := fun m hm ↦ hm.steady p env s
  have hq := Act.IsReport.isQuiet
  cases op with
  | command name args =>
    rw [Op.program, run_bind]
    have hrun := parseCommand_moves p env name args s
    split <;> rename_i h <;> rw [h] at hrun <;> exact hrun
  | work => exact steady _ (madeOf_workerStep hq config w)
  | sessionLogon => exact steady _ ((madeOf_sessionLogon hq).bind fun _ ↦ .pure w)
  | sessionLogoff => exact steady _ ((madeOf_sessionLogoff hq).bind fun _ ↦ .pure w)
  | sessionLock => exact steady _ ((madeOf_sessionLock hq).bind fun _ ↦ .pure w)
  | sessionUnlock => exact steady _ ((madeOf_sessionUnlock hq).bind fun _ ↦ .pure w)

end Steps

/-- **The agent refines the register.**  An operation leaves the version `nextVersion` computes, and
what it writes and holds back is judged by that version. -/
theorem step_moves (p : Platform) (config : Config) (sys : System) (o : Op × Env) :
    Moves (nextVersion o.1 sys.agent.apiVersion) sys.agent (System.step p config sys o).agent := by
  have hrun := program_moves p o.2 config sys.worker o.1 { sys.agent with calls := 0 }
  rw [System.step]
  split <;> rename_i h <;> rw [h] at hrun <;> exact ⟨hrun.apiVersion, hrun.written, hrun.records⟩

/-- The version after a run is the one the register holds after it. -/
theorem apiVersion_exec (p : Platform) (config : Config) (sys : System) (run : List (Op × Env)) :
    (sys.exec p config run).agent.apiVersion =
      run.foldl (fun v o ↦ nextVersion o.1 v) sys.agent.apiVersion := by
  induction run generalizing sys with
  | nil => rfl
  | cons o run ih =>
    rw [System.exec, List.foldl_cons, List.foldl_cons, ← (step_moves p config sys o).apiVersion]
    exact ih _

/-! ## Bounds -/

/-- The version is one the agent knows, and no message every version has was held back. -/
structure Audible (sys : System) : Prop where
  nonneg : 0 ≤ sys.agent.apiVersion
  le_max : sys.agent.apiVersion ≤ maxSupportedApiVersion
  records : ∀ name v, .notSupported name v ∈ sys.agent.records → messageMinApiVersion name ≠ 0

/-- The operation is an `api-version` command with a value that `int` makes negative. -/
def AsksNegative : Op → Prop
  | .command name args =>
    Command.ofObj name = some .apiVersion ∧
      ∃ x n, args.get? (key "apiVersion") = some x ∧ x.toInt = .ok n ∧ n < 0
  | _ => False

theorem loadVersion_nonneg_iff (version : PyObj) {v : Int} (hv : 0 ≤ v) :
    0 ≤ loadVersion version v ↔ ∀ n, version.toInt = .ok n → 0 ≤ n := by
  rcases h : version.toInt with e | n <;> simp only [loadVersion, h]
  · exact iff_of_true hv fun n hn ↦ by cases hn
  · simp [maxSupportedApiVersion]

theorem nextVersion_nonneg_iff (op : Op) {v : Int} (hv : 0 ≤ v) :
    0 ≤ nextVersion op v ↔ ¬ AsksNegative op := by
  cases op with
  | command name args =>
    simp only [nextVersion, AsksNegative]
    split
    · rename_i h
      cases hx : args.get? (key "apiVersion") with
      | none => simpa [h] using hv
      | some x => simpa [h] using loadVersion_nonneg_iff x hv
    · rename_i h
      have hmin : 0 ≤ min v disabledApiValue := le_min hv le_rfl
      split <;> simp [h, hv, hmin]
    · rename_i h _
      exact iff_of_true hv fun hask ↦ h hask.1
  | _ => exact iff_of_true hv id

theorem step_audible_iff (p : Platform) (config : Config) (sys : System) (o : Op × Env)
    (h : Audible sys) : Audible (System.step p config sys o) ↔ ¬ AsksNegative o.1 := by
  obtain ⟨hv, -, rs, hrs, hr⟩ := step_moves p config sys o
  rw [← nextVersion_nonneg_iff o.1 h.nonneg]
  constructor
  · intro h'
    exact hv ▸ h'.nonneg
  · intro hnonneg
    refine ⟨hv ▸ hnonneg, hv ▸ nextVersion_le o.1 h.le_max, fun name v hmem ↦ ?_⟩
    rw [hrs, List.mem_append] at hmem
    rcases hmem with hmem | hmem
    · exact h.records name v hmem
    · have := (hr name v hmem).2
      omega

theorem audible_init : Audible System.init :=
  ⟨le_rfl, by decide, fun _ _ hmem ↦ by cases hmem⟩

/-- An agent told to use version `-1`. -/
def commandMinusOne : Op := .command (.ofString "api-version") [(key "apiVersion", .int (-1))]

/-- The agent does not stay audible in every run: it takes `-1` for a version. -/
theorem not_always_audible :
    ¬ Always (System.step .linux .default) Audible System.init [(commandMinusOne, .idle)] := by
  rintro ⟨-, h⟩
  exact absurd h.nonneg (by decide)

/-- **The agent stays audible exactly as long as nobody asks for a negative version.** -/
theorem always_audible_iff (p : Platform) (config : Config) (run : List (Op × Env)) :
    Always (System.step p config) Audible System.init run ↔ ∀ o ∈ run, ¬ AsksNegative o.1 := by
  rw [always_iff_each (step_audible_iff p config) audible_init]
  exact each_iff_forall_mem

end GuestAgent
