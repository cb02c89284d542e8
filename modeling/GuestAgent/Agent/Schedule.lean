import GuestAgent.Agent.System
import GuestAgent.Library.Transition
import Mathlib.Algebra.Order.Ring.Int
import Mathlib.Data.List.Forall2

/-!
# When the worker reports what

The loop of `doWork` has five countdowns, one for each group of reports.  Each of them starts at the
rate of its group, goes down by one in every iteration, and at zero or below the group is reported
and the countdown starts again; the first heartbeat reports version 0 and the later ones the version
the agent supports.

What this comes to is a schedule: `dueGroups` are the groups to be reported in iteration `i`, in
order, and a group is due in the multiples of its rate, or in every iteration where the rate is not
positive.  `doWorkLoop_after` says that the loop follows the schedule, as an equality of programs:
it performs the same operations whatever they are answered.

`Group.Performs` lists what a group asks the data retriever and what it hands to the channel, which
is the other half of the matter: `work_onSchedule` says, for a run of the agent in which other
threads come between the iterations, what the host gets to see of each iteration.
-/

set_option autoImplicit false

namespace GuestAgent

open Effect Effect.Prog AgentM Transition

/-! ## The schedule -/

/-- A group of reports, with the version a heartbeat reports. -/
inductive Group where
  | heartbeat (reportedVersion : Int)
  | userCheck | applications | disksUsage | numberOfCPUs
  deriving DecidableEq, Repr

/-- What reports a group. -/
def Group.report : Group → AgentM Unit
  | heartbeat reportedVersion => sendHeartbeat reportedVersion
  | userCheck => sendUserInfo false
  | applications => sendAppGroup
  | disksUsage => sendDisksUsages
  | numberOfCPUs => sendNumberOfCPUs

/-- Report groups one after the other. -/
def reportAll : List Group → AgentM Unit
  | [] => pure ()
  | g :: groups => do
    g.report
    reportAll groups

/-- A group with this rate is due in iteration `i`. -/
def Due (rate : Int) (i : ℕ) : Prop := max 1 rate ∣ i

instance (rate : Int) (i : ℕ) : Decidable (Due rate i) :=
  inferInstanceAs (Decidable (max 1 rate ∣ (i : Int)))

/-- The version a heartbeat in iteration `i` reports: nothing is supported yet in the first one. -/
def reportedVersionAt (config : Config) (i : ℕ) : Int :=
  if (i : Int) = max 1 config.heartBitRate then disabledApiValue else maxSupportedApiVersion

/-- A group with this rate, where it is due. -/
def ifDue (rate : Int) (i : ℕ) (g : Group) : List Group := if Due rate i then [g] else []

/-- The groups due in iteration `i`. -/
def dueGroups (config : Config) (i : ℕ) : List Group :=
  ifDue config.heartBitRate i (.heartbeat (reportedVersionAt config i)) ++
    ifDue config.userCheckRate i .userCheck ++
    ifDue config.appRefreshRate i .applications ++
    ifDue config.disksRefreshRate i .disksUsage ++
    ifDue config.numCPUsCheckRate i .numberOfCPUs

example : dueGroups .default 60 = [.heartbeat 3, .userCheck, .numberOfCPUs] := by decide

/-- The first `n` iterations of the loop, from where its variables are `c`. -/
def doWorkLoop (config : Config) : ℕ → Counters → AgentM Counters
  | 0, c => pure c
  | n + 1, c => do
    let c ← doWorkIteration config c
    doWorkLoop config n c

/-! ## The countdowns -/

/-- What a countdown is at after `n` iterations. -/
def secsAfter (rate : Int) (n : ℕ) : Int := if rate ≤ 0 then rate else rate - n % rate

/-- The variables of the loop after `n` iterations. -/
def Counters.after (config : Config) (n : ℕ) : Counters where
  counter := n
  hbsecs := secsAfter config.heartBitRate n
  appsecs := secsAfter config.appRefreshRate n
  disksecs := secsAfter config.disksRefreshRate n
  usersecs := secsAfter config.userCheckRate n
  numcpusecs := secsAfter config.numCPUsCheckRate n
  reportedVersion :=
    if (n : Int) < max 1 config.heartBitRate then disabledApiValue else maxSupportedApiVersion

theorem secsAfter_zero (rate : Int) : secsAfter rate 0 = rate := by
  rw [secsAfter]
  split <;> simp

/-- The remainder goes up by one, until it starts again. -/
theorem succ_emod {rate : Int} (h : 0 < rate) (n : Int) :
    (n + 1) % rate = if n % rate = rate - 1 then 0 else n % rate + 1 := by
  have hdiv := Int.emod_add_mul_ediv n rate
  have hlt := Int.emod_lt_of_pos n h
  have hnonneg := Int.emod_nonneg n h.ne'
  split
  · refine ((Int.ediv_emod_unique (q := n / rate + 1) h).mpr ⟨?_, le_rfl, h⟩).2
    rw [mul_add, mul_one]
    omega
  · exact ((Int.ediv_emod_unique (q := n / rate) h).mpr ⟨by omega, by omega, by omega⟩).2

/-- A countdown runs out in the iterations its group is due in. -/
theorem secsAfter_sub_one_nonpos_iff (rate : Int) (n : ℕ) :
    secsAfter rate n - 1 ≤ 0 ↔ Due rate (n + 1) := by
  rw [secsAfter, Due]
  by_cases hrate : rate ≤ 0
  · rw [if_pos hrate, max_eq_left (by omega)]
    exact iff_of_true (by omega) (one_dvd _)
  · have hlt := Int.emod_lt_of_pos n (show 0 < rate by omega)
    have hnonneg := Int.emod_nonneg n (show rate ≠ 0 by omega)
    rw [if_neg hrate, max_eq_right (by omega), Int.dvd_iff_emod_eq_zero, Nat.cast_succ,
      succ_emod (by omega)]
    split <;> omega

theorem secsAfter_succ (rate : Int) (n : ℕ) :
    secsAfter rate (n + 1) = if Due rate (n + 1) then rate else secsAfter rate n - 1 := by
  by_cases hrate : rate ≤ 0
  · have hdue : Due rate (n + 1) := by
      rw [Due, max_eq_left (by omega)]
      exact one_dvd _
    rw [if_pos hdue, secsAfter, if_pos hrate]
  · have hdue := secsAfter_sub_one_nonpos_iff rate n
    have hlt := Int.emod_lt_of_pos n (show 0 < rate by omega)
    rw [secsAfter, if_neg hrate] at hdue
    rw [secsAfter, secsAfter, if_neg hrate, if_neg hrate, Nat.cast_succ, succ_emod (by omega)]
    by_cases hd : Due rate (n + 1)
    · have hlast := hdue.mpr hd
      rw [if_pos hd]
      split <;> omega
    · have hlater := mt hdue.mp hd
      rw [if_neg hd]
      split <;> omega

/-- One countdown of an iteration. -/
theorem countdown_after (rate : Int) (n : ℕ) (g : Group) :
    countdown rate (secsAfter rate n) g.report = (do
      reportAll (ifDue rate (n + 1) g)
      pure (secsAfter rate (n + 1))) := by
  rw [countdown, secsAfter_succ, ifDue]
  simp only [secsAfter_sub_one_nonpos_iff]
  split
  · rw [reportAll, reportAll, bind_assoc, pure_bind]
  · rfl

/-! ## The loop -/

theorem reportAll_append (groups groups' : List Group) :
    reportAll (groups ++ groups') = (do
      reportAll groups
      reportAll groups') := by
  induction groups with
  | nil => rfl
  | cons g groups ih => rw [List.cons_append, reportAll, ih, reportAll, bind_assoc]

/-- The first iteration with a heartbeat is the one of its rate. -/
theorem lt_rate_iff_of_due {rate : Int} {n : ℕ} (h : Due rate (n + 1)) :
    (n : Int) < max 1 rate ↔ ((n + 1 : ℕ) : Int) = max 1 rate := by
  have hle := Int.le_of_dvd (by omega) h
  omega

/-- The heartbeat of an iteration reports the version of the schedule, if there is one. -/
theorem ifDue_heartbeat (config : Config) (n : ℕ) :
    ifDue config.heartBitRate (n + 1) (.heartbeat (Counters.after config n).reportedVersion) =
      ifDue config.heartBitRate (n + 1) (.heartbeat (reportedVersionAt config (n + 1))) := by
  rw [ifDue, ifDue]
  split
  · rename_i hdue
    simp only [Counters.after, reportedVersionAt, lt_rate_iff_of_due hdue]
  · rfl

/-- The version the next heartbeat reports, after an iteration. -/
theorem reportedVersion_after (config : Config) (n : ℕ) :
    (if (Counters.after config n).hbsecs - 1 ≤ 0 then maxSupportedApiVersion
      else (Counters.after config n).reportedVersion) =
        (Counters.after config (n + 1)).reportedVersion := by
  simp only [Counters.after, secsAfter_sub_one_nonpos_iff]
  by_cases hdue : Due config.heartBitRate (n + 1)
  · have hle := Int.le_of_dvd (by omega) hdue
    rw [if_pos hdue, if_neg (by omega)]
  · have hne : ((n + 1 : ℕ) : Int) ≠ max 1 config.heartBitRate := by
      intro heq
      exact hdue (by rw [Due, heq])
    rw [if_neg hdue]
    congr 1
    rw [eq_iff_iff]
    omega

/-- **One iteration**: it reports the groups that are due, in order. -/
theorem doWorkIteration_after (config : Config) (n : ℕ) :
    doWorkIteration config (.after config n) = (do
      reportAll (dueGroups config (n + 1))
      pure (.after config (n + 1))) := by
  have hbeat : countdown config.heartBitRate (Counters.after config n).hbsecs
      (sendHeartbeat (Counters.after config n).reportedVersion) = (do
        reportAll
          (ifDue config.heartBitRate (n + 1) (.heartbeat (reportedVersionAt config (n + 1))))
        pure (Counters.after config (n + 1)).hbsecs) := by
    rw [← ifDue_heartbeat]
    exact countdown_after config.heartBitRate n (.heartbeat _)
  have huser : countdown config.userCheckRate (Counters.after config n).usersecs _ = _ :=
    countdown_after config.userCheckRate n .userCheck
  have happ : countdown config.appRefreshRate (Counters.after config n).appsecs _ = _ :=
    countdown_after config.appRefreshRate n .applications
  have hdisk : countdown config.disksRefreshRate (Counters.after config n).disksecs _ = _ :=
    countdown_after config.disksRefreshRate n .disksUsage
  have hcpus : countdown config.numCPUsCheckRate (Counters.after config n).numcpusecs _ = _ :=
    countdown_after config.numCPUsCheckRate n .numberOfCPUs
  dsimp only [Group.report] at huser happ hdisk hcpus
  simp only [doWorkIteration, dueGroups, reportAll_append, bind_assoc, pure_bind, hbeat, huser,
    happ, hdisk, hcpus, reportedVersion_after]
  rfl

/-- **The loop**: its first `m` iterations report what is due in them, one after the other. -/
theorem doWorkLoop_after (config : Config) (m n : ℕ) :
    doWorkLoop config m (.after config n) = (do
      reportAll ((List.range' (n + 1) m).flatMap (dueGroups config))
      pure (.after config (n + m))) := by
  induction m generalizing n with
  | zero => rfl
  | succ m ih =>
    rw [doWorkLoop, doWorkIteration_after, bind_assoc, pure_bind, ih, List.range'_succ,
      List.flatMap_cons, reportAll_append, bind_assoc, Nat.add_right_comm n 1 m,
      Nat.add_assoc n m 1]

/-- The reports before the loop. -/
theorem doWorkStart_eq (config : Config) : doWorkStart config = (do
    sessionStartup
    log (.doWork true)
    sendInfo
    sendUserInfo false
    sendAppList
    sendContainerList
    sendFQDN
    sendTimezone
    sendOsInfo) >>= fun _ ↦ pure (.after config 0) := by
  have hafter : Counters.after config 0 = ⟨0, config.heartBitRate, config.appRefreshRate,
      config.disksRefreshRate, config.userCheckRate, config.numCPUsCheckRate,
      disabledApiValue⟩ := by
    simp only [Counters.after, secsAfter_zero, Nat.cast_zero]
    rw [if_pos (by omega)]
  rw [hafter]
  simp only [bind_assoc]
  rfl

/-! ## What a group hands to the channel -/

/-- An operation that was performed, with its answer. -/
abbrev Performed := Σ a : Act, a.Resp

/-- The operations that are the business of others: the questions to the data retriever, the
messages handed to the channel, and the records of those that are not. -/
def Act.isOutward : Act → Bool
  | dr _ | vioWrite _ _ | log (.notSupported _ _) => true
  | _ => false

def outward (xs : List Performed) : List Performed := xs.filter (·.1.isOutward)

def Performed.answered (q : Query) (answer : q.Ans) : Performed := ⟨.dr q, .ok answer⟩

/-- A message is handed to the channel if version `v` has it. -/
def Performed.sent (v : Int) (name : MessageName) (args : Dict) : Performed :=
  if messageMinApiVersion name ≤ v then ⟨.vioWrite name args, .ok ()⟩
  else ⟨.log (.notSupported name v), ()⟩

open Performed in
/-- What a group does, with version `v` in force and `known` the user reported last. -/
inductive Group.Performs (v : Int) (known : PyStr) : Group → List Performed → Prop
  | heartbeat (reportedVersion : Int) (ram stats : PyObj) :
    Performs v known (.heartbeat reportedVersion)
      [answered .getAvailableRAM ram, answered .getMemoryStats stats,
        sent v .heartbeat [(key "free-ram", ram), (key "memory-stat", stats),
          (key "apiVersion", .int reportedVersion)]]
  | sameUser (user : PyStr) (h : user.eq known = true) :
    Performs v known .userCheck [answered .getActiveUser user]
  | newUser (user : PyStr) (h : user.eq known = false) :
    Performs v known .userCheck
      [answered .getActiveUser user, sent v .activeUser [(key "name", .str user)]]
  | applications (apps list name version interfaces fqdn : PyObj) :
    Performs v known .applications
      [answered .getApplications apps, sent v .applications [(key "applications", apps)],
        answered .getContainerList list, sent v .containers [(key "list", list)],
        answered .getMachineName name, sent v .hostName [(key "name", name)],
        answered .getOsVersion version, sent v .osVersion [(key "version", version)],
        answered .getAllNetworkInterfaces interfaces,
        sent v .networkInterfaces [(key "interfaces", interfaces)],
        answered .getFQDN fqdn, sent v .fqdn [(key "fqdn", fqdn)]]
  | disksUsage (disks mapping : PyObj) :
    Performs v known .disksUsage
      [answered .getDisksUsage disks, answered .getDiskMapping mapping,
        sent v .disksUsage [(key "disks", disks), (key "mapping", mapping)]]
  | numberOfCPUs (count : PyObj) :
    Performs v known .numberOfCPUs
      [answered .getNumberOfCPUs count, sent v .numberOfCpus [(key "count", count)]]

/-- Groups do so one after the other. -/
def PerformsAll (v : Int) (known : PyStr) (groups : List Group) (xs : List Performed) : Prop :=
  ∃ parts, List.Forall₂ (Group.Performs v known) groups parts ∧ xs = parts.flatten

/-- Only the user check asks who the user reported last is. -/
theorem Group.Performs.known {v : Int} {known : PyStr} {g : Group} {xs : List Performed}
    (h : g.Performs v known xs) (hg : g ≠ .userCheck) (known' : PyStr) :
    g.Performs v known' xs := by
  cases h with
  | heartbeat reportedVersion ram stats => exact .heartbeat reportedVersion ram stats
  | sameUser user h => exact absurd rfl hg
  | newUser user h => exact absurd rfl hg
  | applications apps list name version interfaces fqdn =>
    exact .applications apps list name version interfaces fqdn
  | disksUsage disks mapping => exact .disksUsage disks mapping
  | numberOfCPUs count => exact .numberOfCPUs count

section Shows

variable {α : Type} {p : Platform} {env : Env} {v : Int} {known : PyStr}

theorem outward_append (xs ys : List Performed) : outward (xs ++ ys) = outward xs ++ outward ys :=
  List.filter_append ..

theorem outward_cons {x : Performed} (h : x.1.isOutward = true) (xs : List Performed) :
    outward ([x] ++ xs) = x :: outward xs := List.filter_cons_of_pos h

theorem outward_cons_of_false {x : Performed} (h : x.1.isOutward = false) (xs : List Performed) :
    outward ([x] ++ xs) = outward xs := List.filter_cons_of_neg (by simp [h])

/-- Where the program returns, what it shows of itself and the state it leaves satisfy `Q`. -/
def Shows (p : Platform) (env : Env) (v : Int) (known : PyStr) (m : AgentM α)
    (Q : List Performed → AgentState → Prop) : Prop :=
  ∀ s, s.apiVersion = v → s.activeUser = known →
    m.Yields (handle p env) s fun _ xs t ↦ Q (outward xs) t

variable {Q : List Performed → AgentState → Prop}

theorem shows_pure {x : α} (hQ : ∀ t, t.apiVersion = v → t.activeUser = known → Q [] t) :
    Shows p env v known (pure x) Q :=
  fun s hv hknown ↦ yields_pure (hQ s hv hknown)

theorem shows_dr {q : Query} {f : q.Ans → AgentM α}
    (hf : ∀ answer, Shows p env v known (f answer) fun xs t ↦ Q (.answered q answer :: xs) t) :
    Shows p env v known (dr q >>= f) Q := by
  intro s hv hknown
  rw [dr, bind_assoc]
  refine yields_bind (yields_perform ?_)
  show (ofExcept (env.dr s.calls q) >>= f).Yields _ _ _
  rcases hanswer : env.dr s.calls q with e | answer
  · exact yields_raise e _
  · intro x t hrun
    rw [outward_cons rfl, handle, hanswer]
    exact hf answer { s with calls := s.calls + 1 } hv hknown x t hrun

theorem shows_vioWrite {name : MessageName} {args : Dict} {f : Unit → AgentM α}
    (hf : Shows p env v known (f ()) fun xs t ↦ Q (⟨.vioWrite name args, .ok ()⟩ :: xs) t) :
    Shows p env v known (vioWrite name args >>= f) Q := by
  intro s hv hknown
  rw [vioWrite, bind_assoc]
  refine yields_bind (yields_perform ?_)
  show (ofExcept (env.vioWrite s.calls name args) >>= f).Yields _ _ _
  rcases hwrite : env.vioWrite s.calls name args with e | _
  · exact yields_raise e _
  · intro x t hrun
    rw [outward_cons rfl, handle, hwrite]
    exact hf { s with
      calls := s.calls + 1
      written := s.written ++ [⟨name, args, s.apiVersion⟩] } hv hknown x t hrun

theorem shows_log {record : LogRecord} {f : Unit → AgentM α}
    (hrecord : (Act.log record).isOutward = false) (hf : Shows p env v known (f ()) Q) :
    Shows p env v known (log record >>= f) Q := by
  intro s hv hknown
  refine yields_bind (yields_perform fun x t hrun ↦ ?_)
  show Q (outward ([⟨.log record, ()⟩] ++ _)) t
  rw [outward_cons_of_false hrecord]
  exact hf { s with records := s.records ++ [record] } hv hknown x t hrun

theorem shows_notSupported {name : MessageName} {f : Unit → AgentM α}
    (hf : Shows p env v known (f ()) fun xs t ↦ Q (⟨.log (.notSupported name v), ()⟩ :: xs) t) :
    Shows p env v known (log (.notSupported name v) >>= f) Q := by
  intro s hv hknown
  refine yields_bind (yields_perform fun x t hrun ↦ ?_)
  show Q (outward ([⟨.log (.notSupported name v), ()⟩] ++ _)) t
  rw [outward_cons rfl]
  exact hf { s with records := s.records ++ [.notSupported name v] } hv hknown x t hrun

theorem shows_readApiVersion {f : Int → AgentM α} (hf : Shows p env v known (f v) Q) :
    Shows p env v known (readApiVersion >>= f) Q := by
  rintro s rfl hknown
  exact yields_bind (yields_perform (hf s rfl hknown))

theorem shows_readActiveUser {f : PyStr → AgentM α} (hf : Shows p env v known (f known) Q) :
    Shows p env v known (readActiveUser >>= f) Q := by
  rintro s hv rfl
  exact yields_bind (yields_perform (hf s hv rfl))

theorem shows_writeActiveUser {user : PyStr} {f : Unit → AgentM α}
    (hf : Shows p env v user (f ()) Q) : Shows p env v known (writeActiveUser user >>= f) Q :=
  fun s hv _ ↦ yields_bind (yields_perform (hf { s with activeUser := user } hv rfl))

theorem shows_send {name : MessageName} {arguments : Option Dict} {f : Unit → AgentM α}
    (hf : Shows p env v known (f ()) fun xs t ↦ Q (.sent v name (arguments.getD []) :: xs) t) :
    Shows p env v known (send name arguments >>= f) Q := by
  rw [send, bind_assoc]
  refine shows_readApiVersion ?_
  by_cases h : messageMinApiVersion name ≤ v
  · simp only [Performed.sent, if_pos h] at hf
    rw [if_pos h, bind_assoc]
    exact shows_log rfl (shows_vioWrite hf)
  · simp only [Performed.sent, if_neg h] at hf
    rw [if_neg h, bind_assoc]
    exact shows_readApiVersion (shows_notSupported hf)

/-- A message that is the last thing a program does. -/
theorem shows_send_last {name : MessageName} {arguments : Option Dict}
    (hQ : ∀ t, t.apiVersion = v → t.activeUser = known →
      Q [.sent v name (arguments.getD [])] t) :
    Shows p env v known (send name arguments) Q := by
  rw [← bind_pure (send name arguments)]
  exact shows_send (shows_pure hQ)

/-- The state a group leaves: only the user check changes who the user reported last is. -/
def Group.Leaves (v : Int) (known : PyStr) (g : Group) (t : AgentState) : Prop :=
  t.apiVersion = v ∧ (g ≠ .userCheck → t.activeUser = known)

/-- **What a group does.** -/
theorem shows_report (g : Group) : Shows p env v known g.report fun xs t ↦
    g.Performs v known xs ∧ g.Leaves v known t := by
  cases g with
  | heartbeat reportedVersion =>
    exact shows_dr fun ram ↦ shows_dr fun stats ↦ shows_send_last fun t hv hknown ↦
      ⟨.heartbeat reportedVersion ram stats, hv, fun _ ↦ hknown⟩
  | userCheck =>
    refine shows_dr fun user ↦ shows_log rfl (shows_readActiveUser ?_)
    rw [Bool.or_false]
    cases h : user.eq known with
    | true => exact shows_pure fun t hv hknown ↦ ⟨.sameUser user h, hv, fun _ ↦ hknown⟩
    | false =>
      rw [Bool.not_false, if_pos rfl, ← bind_pure (writeActiveUser user)]
      exact shows_send (shows_writeActiveUser (shows_pure fun t hv _ ↦
        ⟨.newUser user h, hv, fun hg ↦ absurd rfl hg⟩))
  | applications =>
    simp only [Group.report, sendAppGroup, sendAppList, sendContainerList, sendInfo, sendFQDN,
      bind_assoc]
    exact shows_dr fun apps ↦ shows_send <| shows_dr fun list ↦ shows_send <|
      shows_dr fun name ↦ shows_send <| shows_dr fun version ↦ shows_send <|
      shows_dr fun interfaces ↦ shows_send <| shows_dr fun fqdn ↦ shows_send_last fun t hv hknown ↦
        ⟨.applications apps list name version interfaces fqdn, hv, fun _ ↦ hknown⟩
  | disksUsage =>
    exact shows_dr fun disks ↦ shows_dr fun mapping ↦ shows_send_last fun t hv hknown ↦
      ⟨.disksUsage disks mapping, hv, fun _ ↦ hknown⟩
  | numberOfCPUs =>
    exact shows_dr fun count ↦ shows_send_last fun t hv hknown ↦
      ⟨.numberOfCPUs count, hv, fun _ ↦ hknown⟩

/-- **What several groups do**, none of them twice. -/
theorem shows_reportAll {groups : List Group} (h : groups.Nodup) :
    Shows p env v known (reportAll groups) fun xs _ ↦ PerformsAll v known groups xs := by
  induction groups generalizing known with
  | nil => exact shows_pure fun _ _ _ ↦ ⟨[], .nil, rfl⟩
  | cons g groups ih =>
    obtain ⟨hg, hgroups⟩ := List.nodup_cons.mp h
    intro s hv hknown
    refine yields_bind fun _ t hrun ↦ ?_
    obtain ⟨hperforms, htv, htknown⟩ := shows_report g s hv hknown _ t hrun
    intro _ r hrun'
    obtain ⟨parts, hparts, hys⟩ := ih hgroups t htv rfl _ r hrun'
    refine ⟨_ :: parts, .cons hperforms ?_, ?_⟩
    · by_cases hcheck : g = .userCheck
      · have hne : ∀ g' ∈ groups, g' ≠ .userCheck := by
          rintro g' hg' rfl
          exact hg (hcheck ▸ hg')
        have hboth := (List.forall₂_and_left groups parts).mpr ⟨hne, hparts⟩
        exact hboth.imp fun _ _ h ↦ h.2.known h.1 known
      · rwa [htknown hcheck] at hparts
    · rw [List.flatten_cons, ← hys, outward_append]

end Shows

/-! ## A round of the loop -/

section Rounds

variable (p : Platform) (config : Config) (env : Env) (s : AgentState)

/-- **One round of the `try` block.** -/
theorem run_doWorkRound (c : Counters) : (doWorkRound config c).run (handle p env) s =
    if env.waitStopIsSet then (.ok none, { s with records := s.records ++ [.doWork false] })
    else match (doWorkIteration config c).run (handle p env) s with
      | (.ok c', t) => (.ok (some c'), t)
      | (.error e, t) => (.ok none, { t with records := t.records ++ [.doWorkFailed e] }) := by
  have hstop : waitStopIsSet.run (handle p env) s = (.ok env.waitStopIsSet, s) := rfl
  rw [doWorkRound, run_tryExcept, run_bind_ok hstop]
  cases env.waitStopIsSet with
  | true => rfl
  | false =>
    simp only [Bool.false_eq_true, if_false, run_bind]
    rcases (doWorkIteration config c).run (handle p env) s with ⟨_ | _, _⟩ <;> rfl

/-- What the worker does when it is in its loop. -/
theorem run_workerStep_looping (c : Counters) :
    (workerStep config (.looping c)).run (handle p env) s =
      match (doWorkRound config c).run (handle p env) s with
      | (.ok (some c'), t) => (.ok (.looping c'), t)
      | (.ok none, t) => (sessionShutdown >>= fun _ ↦ pure .finished).run (handle p env) t
      | (.error e, t) => (.error e, t) := by
  rw [workerStep, run_bind]
  rcases (doWorkRound config c).run (handle p env) s with ⟨_ | _ | _, _⟩ <;> rfl

theorem run_iteration {env : Env} {s t : AgentState} {n : ℕ} {out : Except PyExn Unit}
    (hreports : (reportAll (dueGroups config (n + 1))).run (handle p env) s = (out, t)) :
    (doWorkIteration config (.after config n)).run (handle p env) s =
      (out.map fun _ ↦ .after config (n + 1), t) := by
  rw [doWorkIteration_after, run_bind, hreports]
  rcases out with _ | _ <;> rfl

/-- **A round follows the schedule**, as long as nothing raises and the agent is not stopped. -/
theorem workerStep_after {env : Env} {s t : AgentState} {n : ℕ} {w : Worker}
    (hrun : (workerStep config (.looping (.after config n))).run (handle p env) s = (.ok w, t)) :
    w = .finished ∨ w = .looping (.after config (n + 1)) ∧ env.waitStopIsSet = false ∧
      (reportAll (dueGroups config (n + 1))).run (handle p env) s = (.ok (), t) := by
  rw [run_workerStep_looping, run_doWorkRound] at hrun
  rcases hstop : env.waitStopIsSet with _ | _ <;> rw [hstop] at hrun
  · rcases hreports : (reportAll (dueGroups config (n + 1))).run (handle p env) s with
      ⟨e | _, r⟩ <;> rw [run_iteration p config hreports] at hrun
    · exact .inl (eq_of_run_bind_pure hrun).symm
    · obtain ⟨hw, rfl⟩ := Prod.mk.inj hrun
      exact .inr ⟨(Except.ok.inj hw).symm, rfl, rfl⟩
  · exact .inl (eq_of_run_bind_pure hrun).symm

/-- What a round performs, beyond asking whether the agent is to stop. -/
theorem outward_workerStep {env : Env} {s t : AgentState} {n : ℕ}
    (hstop : env.waitStopIsSet = false)
    (hreports : (reportAll (dueGroups config (n + 1))).run (handle p env) s = (.ok (), t)) :
    outward ((workerStep config (.looping (.after config n))).history (handle p env) s) =
      outward ((reportAll (dueGroups config (n + 1))).history (handle p env) s) := by
  have hiteration := run_iteration p config hreports
  have hround : (doWorkRound config (.after config n)).run (handle p env) s =
      (.ok (some (.after config (n + 1))), t) := by
    rw [run_doWorkRound, hstop, hiteration]
    rfl
  have hwait : waitStopIsSet.run (handle p env) s = (.ok false, s) := by
    rw [← hstop]
    rfl
  have hhistory : (doWorkRound config (.after config n)).history (handle p env) s =
      [⟨.waitStopIsSet, env.waitStopIsSet⟩] ++
        (reportAll (dueGroups config (n + 1))).history (handle p env) s := by
    rw [doWorkRound, history_tryExcept, history_bind_ok hwait, run_bind_ok hwait,
      if_neg Bool.false_ne_true, history_bind_ok hiteration, run_bind_ok hiteration,
      doWorkIteration_after, history_bind_pure]
    simp [waitStopIsSet, handle]
  rw [workerStep, history_bind_ok hround, hhistory, outward_append, outward_append]
  exact List.append_nil _

end Rounds

/-! ## Runs of the agent -/

/-- Is it a step of the worker? -/
def Op.isWork : Op → Bool
  | work => true
  | _ => false

/-- Where the worker is after `k` steps: the first one takes it to its loop, and each of the others
through one iteration. -/
def Worker.After (config : Config) (k : ℕ) : Worker → Prop
  | starting => k = 0
  | looping c => ∃ n, k = n + 1 ∧ c = .after config n
  | finished => True

section Runs

variable (p : Platform) {config : Config} {sys : System} {k : ℕ}

/-- Other operations leave the worker where it is. -/
theorem step_worker_of_not_work (config : Config) (sys : System) {o : Op × Env}
    (h : o.1.isWork = false) : (System.step p config sys o).worker = sys.worker := by
  have hstep : ∀ m : AgentM Unit, o.1.program config sys.worker = (m >>= fun _ ↦ pure sys.worker) →
      o.1.workerAfterRaise sys.worker = sys.worker →
      (System.step p config sys o).worker = sys.worker := by
    intro m hm hraise
    rw [System.step, hm, hraise, run_bind]
    rcases m.run (handle p o.2) { sys.agent with calls := 0 } with ⟨_ | _, _⟩ <;> rfl
  obtain ⟨op, env⟩ := o
  cases op with
  | work => cases h
  | command name args => exact hstep (parseCommand name args) rfl rfl
  | sessionLogon => exact hstep sessionLogon rfl rfl
  | sessionLogoff => exact hstep sessionLogoff rfl rfl
  | sessionLock => exact hstep sessionLock rfl rfl
  | sessionUnlock => exact hstep sessionUnlock rfl rfl

/-- What a step of the worker returns, if it returns. -/
theorem after_of_workerStep {w : Worker} (h : w.After config k) {env : Env} {s t : AgentState}
    {w' : Worker} (hrun : (workerStep config w).run (handle p env) s = (.ok w', t)) :
    w'.After config (k + 1) := by
  cases w with
  | starting =>
    obtain rfl : k = 0 := h
    rw [workerStep, doWorkStart_eq, bind_assoc] at hrun
    obtain rfl := eq_of_run_bind_pure hrun
    exact ⟨0, rfl, rfl⟩
  | looping c =>
    obtain ⟨n, rfl, rfl⟩ := h
    obtain rfl | ⟨rfl, -, -⟩ := workerStep_after p config hrun
    · trivial
    · exact ⟨n + 1, rfl, rfl⟩
  | finished =>
    cases hrun
    trivial

theorem after_step (h : sys.worker.After config k) (o : Op × Env) :
    (System.step p config sys o).worker.After config (k + if o.1.isWork then 1 else 0) := by
  cases hwork : o.1.isWork with
  | false => rwa [step_worker_of_not_work p config sys hwork]
  | true =>
    obtain ⟨op, env⟩ := o
    cases op with
    | work =>
      simp only [System.step, Op.program]
      rcases hrun : (workerStep config sys.worker).run (handle p env)
        { sys.agent with calls := 0 } with ⟨e | w, t⟩
      · trivial
      · exact after_of_workerStep p h hrun
    | _ => cases hwork

/-- The worker after a run of the agent. -/
theorem after_exec (h : sys.worker.After config k) (run : List (Op × Env)) :
    (sys.exec p config run).worker.After config (k + run.countP (·.1.isWork)) := by
  induction run generalizing sys k with
  | nil => exact h
  | cons o run ih =>
    rw [List.countP_cons, Nat.add_comm (run.countP _), ← Nat.add_assoc]
    exact ih (after_step p h o)

theorem ifDue_sublist (rate : Int) (i : ℕ) (g : Group) : (ifDue rate i g).Sublist [g] := by
  rw [ifDue]
  split
  · exact .refl _
  · exact List.nil_sublist _

theorem nodup_dueGroups (config : Config) (i : ℕ) : (dueGroups config i).Nodup := by
  have hsub : (dueGroups config i).Sublist [.heartbeat (reportedVersionAt config i), .userCheck,
      .applications, .disksUsage, .numberOfCPUs] :=
    ((((ifDue_sublist _ i _).append (ifDue_sublist _ i _)).append (ifDue_sublist _ i _)).append
      (ifDue_sublist _ i _)).append (ifDue_sublist _ i _)
  exact hsub.nodup (by simp)

/-- What an operation of the agent performs. -/
def System.performed (p : Platform) (config : Config) (sys : System) (o : Op × Env) :
    List Performed :=
  (o.1.program config sys.worker).history (handle p o.2) { sys.agent with calls := 0 }

/-- **The schedule of the worker.**  After a run of the agent with `n` steps of the worker, the next
one is the `n`-th iteration of the loop.  As long as it is not the last one, because the agent is
stopped or something raises, it does what the groups do that are due in it, one after the other. -/
theorem work_onSchedule (config : Config) (run : List (Op × Env)) {c c' : Counters} {env : Env}
    (hbefore : (System.init.exec p config run).worker = .looping c)
    (hafter : (System.step p config (System.init.exec p config run) (.work, env)).worker =
      .looping c') :
    c' = .after config (run.countP (·.1.isWork)) ∧
      PerformsAll (System.init.exec p config run).agent.apiVersion
        (System.init.exec p config run).agent.activeUser
        (dueGroups config (run.countP (·.1.isWork)))
        (outward ((System.init.exec p config run).performed p config (.work, env))) := by
  have hinit : System.init.worker.After config 0 := rfl
  have hrun := after_exec p hinit run
  rw [hbefore, Nat.zero_add] at hrun
  obtain ⟨n, hn, rfl⟩ := hrun
  rw [hn, System.performed, Op.program, hbefore]
  set sys := System.init.exec p config run
  rw [System.step, Op.program, hbefore] at hafter
  rcases hstep : (workerStep config (.looping (.after config n))).run (handle p env)
    { sys.agent with calls := 0 } with ⟨e | w, t⟩
  · rw [hstep] at hafter
    cases hafter
  · rw [hstep] at hafter
    obtain rfl : w = .looping c' := hafter
    obtain hw | ⟨hw, hstop, hreports⟩ := workerStep_after p config hstep
    · cases hw
    · rw [outward_workerStep p config hstop hreports]
      exact ⟨Worker.looping.inj hw,
        shows_reportAll (nodup_dueGroups config (n + 1)) _ rfl rfl () t hreports⟩

/-- Rates at which everything is due in every iteration. -/
def everyIteration : Config where
  heartBitRate := 1
  userCheckRate := 0
  appRefreshRate := -1
  disksRefreshRate := 1
  numCPUsCheckRate := 1

/-- The first two iterations. -/
theorem work_onSchedule_everyIteration :
    PerformsAll 0 (key "None")
      [.heartbeat 0, .userCheck, .applications, .disksUsage, .numberOfCPUs]
      (outward ((System.init.exec .linux everyIteration [(.work, .idle)]).performed .linux
        everyIteration (.work, .idle))) ∧
    PerformsAll 0 (key "None")
      [.heartbeat 3, .userCheck, .applications, .disksUsage, .numberOfCPUs]
      (outward ((System.init.exec .linux everyIteration [(.work, .idle), (.work, .idle)]).performed
        .linux everyIteration (.work, .idle))) :=
  ⟨(work_onSchedule .linux everyIteration [(.work, .idle)] rfl rfl).2,
    (work_onSchedule .linux everyIteration [(.work, .idle), (.work, .idle)] rfl rfl).2⟩

end Runs

end GuestAgent
