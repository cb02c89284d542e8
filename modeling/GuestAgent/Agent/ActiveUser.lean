import GuestAgent.Agent.System
import GuestAgent.Library.Threads
import GuestAgent.Library.Transition

/-!
# The active user, as the host knows it

The agent remembers in `activeUser` the name it last reported to the host, and `sendUserInfo` sends
nothing as long as the user is that one.  Three threads see to the two, and nothing keeps them
apart: the worker and the listener run `sendUserInfo`, and the thread of the Windows service runs
`sessionLogon` and `sessionLogoff`.  `sendUserInfo` first sends a name and then remembers it, while
`sessionLogoff` first remembers that there is no user, and sends what is remembered afterwards.

The threads run the programs of `GuestAgent.Agent.Logic`, interleaved at every operation.  Between
its message and its assignment a thread can be overtaken, and then the name the host knows is not
the one that is remembered: `not_always_agrees` is such a run.  As long as no thread is overtaken,
`always_agrees` says that the two are the same whenever no thread is at work.
-/

set_option autoImplicit false

namespace GuestAgent

open Effect Effect.Prog AgentM Transition

/-! ## What a thread has done -/

/-- The user an `active-user` message names. -/
def userName (args : Dict) : Option PyStr :=
  match args.get? (key "name") with
  | some (.str name) => some name
  | _ => none

/-- The user the last `active-user` message names. -/
def lastReported (written : List Sent) : Option PyStr :=
  (written.filter (·.name = .activeUser)).getLast?.bind (userName ·.args)

/-- Where a thread is between its `active-user` message and its assignment. -/
inductive Pairing where
  /-- It has done both, or neither. -/
  | settled
  /-- It has sent a name, and is to assign it. -/
  | sent (name : PyStr)
  /-- It has assigned a name, and is to send what is remembered. -/
  | assigned
  /-- It has looked up what is remembered, and is to send it. -/
  | loaded (name : PyStr)
  deriving DecidableEq

def Pairing.next : Pairing → (a : Act) → a.Resp → Pairing
  | settled, .vioWrite .activeUser args, _ => ((userName args).map sent).getD settled
  | loaded _, .vioWrite .activeUser _, _ => settled
  | settled, .writeActiveUser _, _ => assigned
  | sent _, .writeActiveUser _, _ => settled
  | assigned, .readActiveUser, name => loaded name
  | m, _, _ => m

/-- What is in order: a thread assigns the name it has sent, or sends the name it has looked up.
Every message is transmitted. -/
def pairing : Monitor Act.Resp Pairing where
  allows
    | m, .vioWrite .activeUser args =>
      ∃ name, userName args = some name ∧ (m = .settled ∨ m = .loaded name)
    | m, .writeActiveUser name => m = .settled ∨ m = .sent name
    | _, .writeApiVersion _ => False
    | _, _ => True
  may
    | _, .vioWrite _ _, r => r = .ok ()
    | _, .readApiVersion, version => 0 ≤ version
    | _, _, _ => True
  next := Pairing.next

/-! ## The programs -/

namespace Reporters

section Programs

variable {m : Pairing}

@[simp] theorem wp_readApiVersion {Q : Except PyExn Int → Pairing → Prop} :
    pairing.wp readApiVersion Q m ↔ ∀ version, 0 ≤ version → Q (.ok version) m := by
  have hnext : ∀ version, m.next .readApiVersion version = m := by
    intro version
    cases m <;> rfl
  simp only [readApiVersion, Monitor.wp_perform, pairing, true_and, hnext]

@[simp] theorem wp_log (record : LogRecord) {Q : Except PyExn Unit → Pairing → Prop} :
    pairing.wp (log record) Q m ↔ Q (.ok ()) m := by
  have hnext : m.next (.log record) () = m := by
    cases m <;> rfl
  refine ⟨fun h ↦ hnext ▸ h.2 () trivial, fun h ↦ ⟨trivial, fun _ _ ↦ ?_⟩⟩
  exact (congrArg (Q (.ok ())) hnext).mpr h

@[simp] theorem wp_dr (q : Query) {Q : Except PyExn q.Ans → Pairing → Prop} :
    pairing.wp (dr q) Q m ↔ ∀ r, Q r m := by
  have hnext : ∀ r, m.next (.dr q) r = m := by
    intro r
    cases m <;> rfl
  simp only [dr, Monitor.wp_bind, Monitor.wp_perform, Monitor.wp_ofExcept, pairing, true_and, hnext,
    forall_const]

@[simp] theorem wp_vioWrite (name : MessageName) (args : Dict)
    {Q : Except PyExn Unit → Pairing → Prop} :
    pairing.wp (vioWrite name args) Q m ↔ pairing.allows m (.vioWrite name args) ∧
      Q (.ok ()) (m.next (.vioWrite name args) (.ok ())) := by
  simp [vioWrite, Monitor.wp_bind, Monitor.wp_ofExcept, pairing]

@[simp] theorem wp_readActiveUser {Q : Except PyExn PyStr → Pairing → Prop} :
    pairing.wp readActiveUser Q m ↔ ∀ name, Q (.ok name) (m.next .readActiveUser name) := by
  simp [readActiveUser, pairing]

@[simp] theorem wp_writeActiveUser (name : PyStr) {Q : Except PyExn Unit → Pairing → Prop} :
    pairing.wp (writeActiveUser name) Q m ↔
      (m = .settled ∨ m = .sent name) ∧ Q (.ok ()) (m.next (.writeActiveUser name) ()) := by
  exact ⟨fun h ↦ ⟨h.1, h.2 () trivial⟩, fun h ↦ ⟨h.1, fun _ _ ↦ h.2⟩⟩

@[simp] theorem wp_writeDesktopLocked (locked : Bool) {Q : Except PyExn Unit → Pairing → Prop} :
    pairing.wp (writeDesktopLocked locked) Q m ↔ Q (.ok ()) m := by
  have hnext : m.next (.writeDesktopLocked locked) () = m := by
    cases m <;> rfl
  refine ⟨fun h ↦ hnext ▸ h.2 () trivial, fun h ↦ ⟨trivial, fun _ _ ↦ ?_⟩⟩
  exact (congrArg (Q (.ok ())) hnext).mpr h

variable {Q : Except PyExn Unit → Pairing → Prop} {name : PyStr}

/-- Another message leaves the account as it is. -/
theorem wp_send {name : MessageName} (hname : name ≠ .activeUser) (arguments : Option Dict)
    (hQ : Q (.ok ()) m) : pairing.wp (send name arguments) Q m := by
  have hallows : ∀ args, pairing.allows m (.vioWrite name args) := by
    intro args
    cases name <;> trivial
  have hnext : ∀ args, m.next (.vioWrite name args) (.ok ()) = m := by
    intro args
    cases m <;> cases name <;> first | rfl | exact absurd rfl hname
  rw [send, Monitor.wp_bind, wp_readApiVersion]
  intro version _
  simp only
  split
  · simp only [Monitor.wp_bind, wp_log, wp_vioWrite]
    exact ⟨hallows _, (hnext _).symm ▸ hQ⟩
  · simpa only [Monitor.wp_bind, wp_readApiVersion, wp_log] using fun _ _ ↦ hQ

/-- The name is sent, whatever the version. -/
theorem wp_send_activeUser (hm : m = .settled ∨ m = .loaded name)
    (hQ : Q (.ok ()) (m.next (.vioWrite .activeUser [(key "name", .str name)]) (.ok ()))) :
    pairing.wp (send .activeUser (some [(key "name", .str name)])) Q m := by
  rw [send, Monitor.wp_bind, wp_readApiVersion]
  intro version hversion
  simp only
  rw [if_pos (show messageMinApiVersion .activeUser ≤ version from hversion)]
  simp only [Monitor.wp_bind, wp_log, wp_vioWrite]
  exact ⟨⟨name, rfl, hm⟩, hQ⟩

/-- **A report of the user** assigns what it has sent. -/
theorem wp_sendUserInfo (force : Bool) :
    pairing.wp (sendUserInfo force) (fun _ m ↦ m = .settled) .settled := by
  rw [sendUserInfo, Monitor.wp_bind, wp_dr]
  rintro (e | curUser)
  · rfl
  · simp only [Monitor.wp_bind, wp_log, wp_readActiveUser]
    intro activeUser
    split
    · rw [Monitor.wp_bind]
      refine wp_send_activeUser (.inl rfl) ?_
      exact (wp_writeActiveUser curUser).mpr ⟨.inr rfl, rfl⟩
    · rfl

theorem wp_awaitUser (retries : ℕ) (curUser : PyStr) :
    pairing.wp (awaitUser retries curUser) (fun _ m ↦ m = .settled) .settled := by
  induction retries generalizing curUser with
  | zero => rfl
  | succ retries ih =>
    rw [awaitUser]
    split
    · rw [Monitor.wp_bind, wp_dr]
      rintro (e | curUser)
      · rfl
      · exact ih curUser
    · rfl

/-- Nothing is raised by what leaves the account settled but it stays so. -/
theorem wp_bind_settled {p q : AgentM Unit}
    (hp : pairing.wp p (fun _ m ↦ m = .settled) .settled)
    (hq : pairing.wp q (fun _ m ↦ m = .settled) .settled) :
    pairing.wp (p >>= fun _ ↦ q) (fun _ m ↦ m = .settled) .settled := by
  rw [Monitor.wp_bind]
  refine Monitor.wp_mono ?_ hp
  rintro (e | ⟨⟩) m rfl
  · rfl
  · exact hq

theorem wp_sessionLogon : pairing.wp sessionLogon (fun _ m ↦ m = .settled) .settled := by
  rw [sessionLogon, Monitor.wp_bind, wp_log]
  simp only
  rw [Monitor.wp_bind, wp_dr]
  rintro (e | curUser)
  · rfl
  · simp only
    rw [Monitor.wp_bind, wp_writeDesktopLocked]
    refine wp_bind_settled (wp_awaitUser 5 curUser) ?_
    exact wp_bind_settled (wp_sendUserInfo false) (wp_send (by decide) none rfl)

/-- **A logoff** sends what is remembered. -/
theorem wp_sessionLogoff : pairing.wp sessionLogoff (fun _ m ↦ m = .settled) .settled := by
  rw [sessionLogoff, Monitor.wp_bind, wp_writeDesktopLocked]
  simp only
  rw [Monitor.wp_bind, wp_log]
  simp only
  rw [Monitor.wp_bind, wp_writeActiveUser]
  refine ⟨.inl rfl, ?_⟩
  simp only
  rw [Monitor.wp_bind]
  refine wp_send (by decide) none ?_
  simp only
  rw [Monitor.wp_bind, wp_readActiveUser]
  intro name
  exact wp_send_activeUser (.inr rfl) rfl

end Programs

end Reporters

/-! ## The threads -/

/-- The threads that report the user. -/
inductive Reporter where
  | worker | listener | service
  deriving DecidableEq, Repr

/-- What they run. -/
inductive Report where
  /-- `sendUserInfo` in `doWork`. -/
  | work
  /-- `sendUserInfo` in `_refresh`. -/
  | refresh
  | sessionLogon | sessionLogoff
  deriving DecidableEq, Repr

def Report.reporter : Report → Reporter
  | work => .worker
  | refresh => .listener
  | sessionLogon | sessionLogoff => .service

def Report.program : Report → AgentM Unit
  | work => sendUserInfo false
  | refresh => sendUserInfo true
  | sessionLogon => GuestAgent.sessionLogon
  | sessionLogoff => GuestAgent.sessionLogoff

/-- The agent and the three threads. -/
abbrev Reporters := Pool Act.Resp PyExn AgentState Pairing Reporter

/-- What happens. -/
inductive ReportStep where
  /-- A thread starts a report, unless it is still at one. -/
  | start (r : Report)
  /-- Thread `i` performs its next operation.  The data retriever may answer anything, and every
  message is written. -/
  | act (i : Reporter) (dr : (q : Query) → Except PyExn q.Ans)
  /-- The host sets another version, none of which is below that of the messages. -/
  | setApiVersion (version : ℕ)

/-- The environment of an operation. -/
def reportEnv (dr : (q : Query) → Except PyExn q.Ans) : Env :=
  { Env.idle with dr := fun _ q ↦ dr q }

namespace Reporters

/-- The agent after `__init__`, and no thread at work. -/
def init : Reporters := ⟨System.init.agent, fun _ ↦ ⟨pure (), .settled⟩⟩

def step (s : Reporters) : ReportStep → Reporters
  | .start r => s.start r.reporter r.program .settled
  | .act i dr => s.act (fun dr ↦ handle .windows (reportEnv dr)) pairing i dr
  | .setApiVersion version => { s with shared := { s.shared with apiVersion := version } }

/-- **A report that is not interleaved** does what its program does when it is run. -/
theorem exists_run_alone (s : Reporters) {r : Report} (h : (s.thread r.reporter).rest.IsDone)
    (dr : (q : Query) → Except PyExn q.Ans) :
    ∃ n, ((step · (.act r.reporter dr))^[n] (s.step (.start r))).shared =
        (r.program.run (handle .windows (reportEnv dr)) s.shared).2 ∧
      (((step · (.act r.reporter dr))^[n] (s.step (.start r))).thread r.reporter).rest.IsDone := by
  have hstart : s.step (.start r) =
      { s with thread := Function.update s.thread r.reporter ⟨r.program, .settled⟩ } := by
    rw [step, Pool.start, if_pos h]
  have hrest : ((s.step (.start r)).thread r.reporter).rest = r.program := by
    simp only [hstart, Function.update_self]
  obtain ⟨n, hshared, hdone, -⟩ := Pool.exists_iterate_act
    (fun dr ↦ handle .windows (reportEnv dr)) pairing r.program (s.step (.start r)) dr hrest
  refine ⟨n, hshared.trans ?_, hdone⟩
  rw [hstart]

/-- When no thread is at work, the host knows the user that is remembered, if it knows of any. -/
def Agrees (s : Reporters) : Prop :=
  (∀ i, (s.thread i).rest.IsDone) →
    ∀ name ∈ lastReported s.shared.written, name = s.shared.activeUser

/-- Thread `i` is not overtaken when it assigns `name`: no other name has been sent after it, or the
thread that has sent that one is to assign it too, or `sessionLogoff` is to send what is
remembered. -/
def MayAssign (s : Reporters) (i : Reporter) (name : PyStr) : Prop :=
  lastReported s.shared.written = some name ∨
    (∃ j, j ≠ i ∧ ∃ name' ∈ lastReported s.shared.written, (s.thread j).account = .sent name') ∨
    ∃ j, (s.thread j).account = .assigned ∨ (s.thread j).account = .loaded name

/-- A thread is not overtaken when it sends `name`: it is remembered still, or it is to be. -/
def MaySend (s : Reporters) (name : PyStr) : Prop :=
  s.shared.activeUser = name ∨ ∃ j, (s.thread j).account = .sent name

/-- No thread is overtaken between its message and its assignment. -/
def Orderly (s : Reporters) : ReportStep → Prop
  | .act i _ =>
    match (s.thread i).account, (s.thread i).rest.next? with
    | .sent _, some (.writeActiveUser name) => s.MayAssign i name
    | .loaded name, some (.vioWrite .activeUser _) => s.MaySend name
    | _, _ => True
  | .start _ | .setApiVersion _ => True

/-! ## The invariant -/

/-- What the host knows and what is remembered, or a thread that is to bring the two together. -/
def Settled (known : Option PyStr) (user : PyStr) (account : Reporter → Pairing) : Prop :=
  ∀ name ∈ known, name = user ∨ ∃ j, account j = .sent name ∨ account j = .assigned ∨
    account j = .loaded user

structure Inv (s : Reporters) : Prop where
  version : 0 ≤ s.shared.apiVersion
  inOrder : s.InOrder pairing (· = .settled)
  settled : Settled (lastReported s.shared.written) s.shared.activeUser fun i ↦ (s.thread i).account

section Settled

variable {known : Option PyStr} {user name : PyStr} {account : Reporter → Pairing} {i : Reporter}

/-- A thread is to bring the two together. -/
theorem Settled.of_account {m : Pairing}
    (h : ∀ name ∈ known, m = .sent name ∨ m = .assigned ∨ m = .loaded user) :
    Settled known user (Function.update account i m) :=
  fun name hname ↦ .inr ⟨i, by rw [Function.update_self]; exact h name hname⟩

/-- Another thread is, still. -/
theorem exists_update (m : Pairing) {j : Reporter} (hj : j ≠ i)
    (h : account j = .sent name ∨ account j = .assigned ∨ account j = .loaded user) :
    ∃ j, Function.update account i m j = .sent name ∨ Function.update account i m j = .assigned ∨
      Function.update account i m j = .loaded user :=
  ⟨j, by rwa [Function.update_of_ne hj]⟩

/-- A thread has sent what it had looked up, and is not overtaken. -/
theorem settled_of_loaded (haccount : account i = .loaded name)
    (h : user = name ∨ ∃ j, account j = .sent name) :
    Settled (some name) user (Function.update account i .settled) := by
  rintro _ ⟨⟩
  rcases h with huser | ⟨j, hj⟩
  · exact .inl huser.symm
  · refine .inr (exists_update _ ?_ (.inl hj))
    rintro rfl
    rw [haccount] at hj
    cases hj

/-- A thread has assigned what it had sent, and is not overtaken. -/
theorem settled_of_sent (haccount : account i = .sent name)
    (h : known = some name ∨ (∃ j, j ≠ i ∧ ∃ name' ∈ known, account j = .sent name') ∨
      ∃ j, account j = .assigned ∨ account j = .loaded name) :
    Settled known name (Function.update account i .settled) := by
  intro name' hname
  rcases h with hlast | ⟨j, hj, name'', hname'', hsent⟩ | ⟨j, hj⟩
  · exact .inl (Option.some.inj (hname.symm.trans hlast))
  · obtain rfl : name' = name'' := Option.some.inj (hname.symm.trans hname'')
    exact .inr (exists_update _ hj (.inl hsent))
  · refine .inr (exists_update _ ?_ (.inr hj))
    rintro rfl
    rw [haccount] at hj
    rcases hj with hj | hj <;> cases hj

end Settled

section Step

variable {s : Reporters} {i : Reporter} {written : List Sent} {name : MessageName} {args : Dict}

theorem account_update (thread : Reporter → Effect.Thread Act.Resp PyExn Pairing) (t) :
    (fun j ↦ (Function.update thread i t j).account) =
      Function.update (fun j ↦ (thread j).account) i t.account :=
  Function.comp_update Effect.Thread.account thread i t

theorem lastReported_append_of_ne (hname : name ≠ .activeUser) (version : Int) :
    lastReported (written ++ [⟨name, args, version⟩]) = lastReported written := by
  rw [lastReported, List.filter_append, List.filter_cons_of_neg (by simpa using hname),
    List.filter_nil, List.append_nil, lastReported]

theorem lastReported_append (version : Int) :
    lastReported (written ++ [⟨.activeUser, args, version⟩]) = userName args := by
  rw [lastReported, List.filter_append, List.filter_cons_of_pos (by simp), List.filter_nil,
    List.getLast?_append]
  rfl

/-- What an operation does to what the host knows and to what is remembered. -/
theorem settled_act {dr : (q : Query) → Except PyExn q.Ans} {a : Act} {k : a.Resp → AgentM Unit}
    (h : s.Inv) (hrest : (s.thread i).rest = .call a k)
    (hallows : pairing.allows (s.thread i).account a) (horderly : s.Orderly (.act i dr)) :
    Settled (lastReported (handle .windows (reportEnv dr) a s.shared).2.written)
      (handle .windows (reportEnv dr) a s.shared).2.activeUser
      (Function.update (fun j ↦ (s.thread j).account) i
        ((s.thread i).account.next a (handle .windows (reportEnv dr) a s.shared).1)) := by
  have hsame {m : Pairing} (hm : m = (s.thread i).account) :
      Settled (lastReported s.shared.written) s.shared.activeUser
        (Function.update (fun j ↦ (s.thread j).account) i m) := by
    rw [hm, Function.update_eq_self]
    exact h.settled
  rw [Orderly, hrest] at horderly
  cases a with
  | vioWrite name args =>
    by_cases hname : name = .activeUser
    · subst hname
      obtain ⟨name, huser, haccount⟩ := hallows
      have hlast : lastReported (handle .windows (reportEnv dr) (.vioWrite .activeUser args)
          s.shared).2.written = some name := (lastReported_append _).trans huser
      rw [hlast]
      rcases haccount with haccount | haccount
      · -- the thread is to assign what it has sent
        have hnext : (s.thread i).account.next (.vioWrite .activeUser args)
            (handle .windows (reportEnv dr) (.vioWrite .activeUser args) s.shared).1 =
              .sent name := by
          rw [haccount, Pairing.next, huser]
          rfl
        rw [hnext]
        exact .of_account fun name' hname ↦ .inl (congrArg Pairing.sent (Option.some.inj hname))
      · -- the thread has sent what it has looked up
        rw [haccount] at horderly ⊢
        exact settled_of_loaded haccount horderly
    · have hm : (s.thread i).account.next (.vioWrite name args)
          (handle .windows (reportEnv dr) (.vioWrite name args) s.shared).1 =
            (s.thread i).account := by
        cases (s.thread i).account <;> cases name <;> first | rfl | exact absurd rfl hname
      have hlast : lastReported (handle .windows (reportEnv dr) (.vioWrite name args)
          s.shared).2.written = _ := lastReported_append_of_ne hname s.shared.apiVersion
      rw [hlast]
      exact hsame hm
  | writeActiveUser name =>
    rcases hallows with haccount | haccount
    · -- `sessionLogoff` is to send what is remembered
      rw [haccount]
      exact .of_account fun _ _ ↦ .inr (.inl rfl)
    · -- the thread assigns what it has sent
      rw [haccount] at horderly ⊢
      exact settled_of_sent haccount horderly
  | readActiveUser =>
    cases haccount : (s.thread i).account with
    | assigned => exact .of_account fun _ _ ↦ .inr (.inr rfl)
    | settled | sent | loaded => exact hsame haccount.symm
  | writeApiVersion version => exact hallows.elim
  | readApiVersion | writeDesktopLocked | dr | listdir | popen | waitStopIsSet | log =>
    exact hsame (by cases (s.thread i).account <;> rfl)
  | commandHandler c =>
    simp only [handle]
    split <;> exact hsame (by cases (s.thread i).account <;> rfl)

/-- No report changes the version. -/
theorem version_handle {dr : (q : Query) → Except PyExn q.Ans} {m : Pairing} {a : Act}
    {t : AgentState} (hallows : pairing.allows m a) (h : 0 ≤ t.apiVersion) :
    0 ≤ (handle .windows (reportEnv dr) a t).2.apiVersion := by
  cases a with
  | writeApiVersion version => exact hallows.elim
  | commandHandler c =>
    simp only [handle]
    split <;> exact h
  | readApiVersion | readActiveUser | writeActiveUser | writeDesktopLocked | dr | vioWrite
  | listdir | popen | waitStopIsSet | log => exact h

theorem inv_act (h : s.Inv) {dr : (q : Query) → Except PyExn q.Ans}
    (horderly : s.Orderly (.act i dr)) : (s.step (.act i dr)).Inv := by
  have hin : (s.step (.act i dr)).InOrder pairing (· = .settled) := by
    refine Pool.inOrder_act h.inOrder fun a _ ↦ ?_
    cases a <;> first | trivial | exact h.version
  rcases h.inOrder.act_cases (fun dr ↦ handle .windows (reportEnv dr)) i dr with
    hsame | ⟨a, k, hrest, hallows, hact⟩
  · rw [step, hsame]
    exact h
  · refine ⟨?_, hin, ?_⟩
    · rw [step, hact]
      exact version_handle hallows h.version
    · rw [step, hact]
      simp only
      rw [account_update]
      exact settled_act h hrest hallows horderly

theorem wp_program (r : Report) : pairing.wp r.program (fun _ m ↦ m = .settled) .settled := by
  cases r with
  | work => exact wp_sendUserInfo false
  | refresh => exact wp_sendUserInfo true
  | sessionLogon => exact wp_sessionLogon
  | sessionLogoff => exact wp_sessionLogoff

theorem inv_start (h : s.Inv) (r : Report) : (s.step (.start r)).Inv := by
  have hin : (s.step (.start r)).InOrder pairing (· = .settled) :=
    Pool.inOrder_start h.inOrder (wp_program r)
  rw [step, Pool.start] at hin ⊢
  by_cases hdone : (s.thread r.reporter).rest.IsDone
  · rw [if_pos hdone] at hin ⊢
    refine ⟨h.version, hin, ?_⟩
    -- a thread that is not at work has a settled account
    have hsettled := h.inOrder.of_isDone hdone
    rw [account_update]
    simp only [← hsettled, Function.update_eq_self]
    exact h.settled
  · rwa [if_neg hdone]

/-- **A step** in which no thread is overtaken. -/
theorem inv_step (h : s.Inv) {a : ReportStep} (horderly : s.Orderly a) : (s.step a).Inv := by
  cases a with
  | act i dr => exact inv_act h horderly
  | setApiVersion version => exact ⟨Int.natCast_nonneg version, h.inOrder, h.settled⟩
  | start r => exact inv_start h r

theorem inv_init : init.Inv where
  version := le_rfl
  inOrder _ := rfl
  settled _ hname := by cases hname

/-- With no thread at work, none is to bring anything together. -/
theorem agrees_of_inv (h : s.Inv) : s.Agrees := by
  intro hdone name hname
  rcases h.settled name hname with huser | ⟨j, hj⟩
  · exact huser
  · have hsettled := h.inOrder.of_isDone (hdone j)
    simp only [hsettled] at hj
    rcases hj with hj | hj | hj <;> cases hj

end Step

/-! ## Runs -/

/-- **The host knows the user that is remembered**, whenever no thread is at work, in a run in which
no thread is overtaken between its message and its assignment. -/
theorem always_agrees {run : List ReportStep} (h : Each step Orderly init run) :
    Always step Agrees init run := by
  have hinv : Always step Inv init run :=
    always_of_each Inv (fun _ _ h horderly ↦ inv_step h horderly) inv_init h
  exact hinv.mono fun _ ↦ agrees_of_inv

/-- The data retriever, when `name` is the active user. -/
def userIs (name : String) : (q : Query) → Except PyExn q.Ans
  | .getActiveUser => .ok (key name)
  | q => Env.idle.dr 0 q

/-- The worker reports `ann`, and the listener `bob` before the worker has assigned the name. -/
def overtakenRun : List ReportStep :=
  .start .work :: .start .refresh ::
    (List.replicate 6 (.act .worker (userIs "ann")) ++
      List.replicate 7 (.act .listener (userIs "bob")) ++ [.act .worker (userIs "ann")])

/-- The worker reports `ann` and the listener `bob`, one operation of each after the other. -/
def alternatingRun : List ReportStep :=
  .start .work :: .start .refresh :: (List.replicate 7
    [.act .worker (userIs "ann"), .act .listener (userIs "bob")]).flatten

theorem not_always_agrees : ¬ Always step Agrees init overtakenRun := by
  rw [always_iff_prefixes]
  intro h
  have hagrees := h overtakenRun (List.prefix_refl _)
  have hdone : ∀ i, ((overtakenRun.foldl step init).thread i).rest.IsDone := by
    rintro (_ | _ | _) <;> trivial
  have hname : key "bob" = key "ann" := hagrees hdone (key "bob") rfl
  exact absurd hname (by decide)

theorem always_agrees_alternatingRun : Always step Agrees init alternatingRun := by
  -- the worker assigns `ann` after `bob` was sent, and the listener is to assign that
  exact always_agrees ⟨trivial, trivial, trivial, trivial, trivial, trivial, trivial, trivial,
    trivial, trivial, trivial, trivial, trivial, trivial,
    .inr (.inl ⟨.listener, nofun, key "bob", rfl, rfl⟩), .inl rfl, trivial⟩

end Reporters

end GuestAgent
