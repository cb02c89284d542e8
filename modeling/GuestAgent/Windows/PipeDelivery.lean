import GuestAgent.Library.Threads
import GuestAgent.Windows.CommandHandler

/-!
# Credentials on the pipe

The agent writes its credentials to a pipe and waits for a reply; where it gets none it tries again,
three times in all.  The other end is a thread of the credential provider, one for each instance of
the pipe, which waits for a client, reads one message, hands it on, replies whether or not it has
read one, and disconnects the pipe without waiting until its reply was read.  It may also be
terminated on its way, and then the pipe is disconnected for it.

Here the agent's login runs against any number of instances, in any interleaving.  `bounded_run` is
what holds whatever they do: what is handed on is what a login has written, at most three times, and
a login ends with one reply at most.  `always_exact_iff` says when what is handed on is what the
agent has a reply for, or is about to get one for: as long as no instance is disconnected while the
agent waits for the reply it owes, and none replies without having handed on.  `once_of_prompt`
is what follows for a login: it is handed on once at most, and just once if it was replied to.
-/

set_option autoImplicit false

namespace GuestAgent.PipeDelivery

open Effect Effect.Prog Effect.Monitor Transition CommandHandlerWin

/-! ## The system -/

/-- What becomes of a message. -/
inductive Fate where
  | unread
  /-- It was read and handed on. -/
  | processed
  /-- It will never be. -/
  | dropped
  deriving DecidableEq, Repr

/-- The call of `CredentialsChannelWait` that is next. -/
inductive Stage where
  /-- `ConnectNamedPipe`. -/
  | connecting
  /-- `ReadFile`, and `ParseCredentialsBuffer`. -/
  | reading
  /-- `WriteFile`. -/
  | replying
  /-- `DisconnectNamedPipe`. -/
  | disconnecting
  | closed
  deriving DecidableEq, Repr

/-- An instance of the pipe. -/
structure Instance where
  /-- The login that has opened it. -/
  client : Option ℕ
  message : Bytes
  fate : Fate
  /-- There is a reply to be read. -/
  answered : Bool
  stage : Stage
  deriving DecidableEq, Repr

/-- `dwPipeBuffer`. -/
def dwPipeBuffer : ℕ := 1024

namespace Instance

/-- `CreateChannel`: `CreateNamedPipe` and `CreateThread`. -/
def new : Instance := ⟨none, [], .dropped, false, .connecting⟩

/-- Login `n` opens the instance and writes its message. -/
def connect (x : Instance) (n : ℕ) (message : Bytes) : Instance :=
  { x with client := some n, message, fate := .unread }

/-- `DisconnectNamedPipe`: what was not read is lost, on both sides. -/
def disconnect (x : Instance) : Instance :=
  { x with
    fate := if x.fate = .unread then .dropped else x.fate
    answered := false
    stage := .closed }

/-- The next call of `CredentialsChannelWait`, which succeeds or not.  A message that does not fit
the buffer is an error of `ReadFile`. -/
def wait (x : Instance) (ok : Bool) : Instance :=
  match x.stage with
  | .connecting =>
    if !ok then { x with stage := .replying }
    else if x.client.isSome then { x with stage := .reading }
    else x
  | .reading =>
    { x with
      fate := if ok ∧ 0 < x.message.length ∧ x.message.length ≤ dwPipeBuffer then .processed
        else .dropped
      stage := .replying }
  | .replying => { x with answered := ok && x.client.isSome, stage := .disconnecting }
  | .disconnecting => x.disconnect
  | .closed => x

/-- The agent has a reply, or the thread is about to give one for what it has handed on. -/
def owes (x : Instance) : Bool := x.stage ≠ .closed && (x.answered || x.fate = .processed)

end Instance

/-- What the agent and the pipe have in common. -/
structure Shared where
  win : WinState
  /-- The credentials of the logins so far. -/
  logins : List Bytes
  instances : List Instance
  /-- The instance the agent waits at. -/
  calling : Option ℕ
  /-- The logins that were replied to. -/
  acked : List ℕ

namespace Shared

variable (s : Shared)

/-- The login the agent is at.  The first one is 1. -/
def current : ℕ := s.logins.length

/-- How often login `n` has written its credentials. -/
def opened (n : ℕ) : ℕ := s.instances.countP fun x ↦ x.client = some n

/-- How often they were handed on. -/
def processed (n : ℕ) : ℕ :=
  s.instances.countP fun x ↦ x.client = some n && x.fate = .processed

def answered (g : ℕ) : Bool := (s.instances[g]?).any (·.answered)

def closed (g : ℕ) : Bool := (s.instances[g]?).any (·.stage = .closed)

/-- How many replies login `n` waits for. -/
def due (n : ℕ) : ℕ :=
  match s.calling with
  | some g => if n = s.current then ((s.instances[g]?).any (·.owes)).toNat else 0
  | none => 0

end Shared

/-- An operation of the agent.  `CallNamedPipe` fails where no instance was opened. -/
def handle (env : WinEnv) : (a : WinAct) → Shared → a.Resp × Shared
  | .callNamedPipe _, s =>
    match s.calling with
    | some g =>
      if s.answered g then (.ok (), { s with calling := none, acked := s.acked ++ [s.current] })
      else (.error .osError, { s with calling := none })
    | none => (.error .osError, s)
  | a, s => ((WinState.handle env a s.win).1, { s with win := (WinState.handle env a s.win).2 })

/-- The agent's account of a login: the attempts that are left, and whether one has succeeded. -/
structure Account where
  message : Bytes
  left : ℕ
  acked : Bool

/-- The agent writes its message while there are attempts left, and until one succeeds. -/
def attempts : Monitor WinAct.Resp Account where
  allows m
    | .callNamedPipe message => message = m.message ∧ 0 < m.left ∧ m.acked = false
    | _ => True
  may _ _ _ := True
  next m
    | .callNamedPipe _, r => { m with left := m.left - 1, acked := r.isOk }
    | _, _ => m

abbrev System := Pool WinAct.Resp PyExn Shared Account Unit

namespace System

/-- What is next of the agent's login. -/
def next? (s : System) : Option WinAct := (s.thread ()).rest.next?

/-- The agent waits for a reply, or until the pipe is disconnected. -/
def waits (s : System) : Bool :=
  match s.next?, s.shared.calling with
  | some (.callNamedPipe _), some g => !s.shared.answered g && !s.shared.closed g
  | _, _ => false

/-- The message the agent is about to write. -/
def writes (s : System) : Option Bytes :=
  match s.next?, s.shared.calling with
  | some (.callNamedPipe message), none => some message
  | _, _ => none

/-- Instance `g` after `f` was done to it. -/
def update (s : System) (g : ℕ) (f : Instance → Instance) : System :=
  { s with shared := { s.shared with instances := s.shared.instances.modify g f } }

end System

/-- What happens. -/
inductive Event where
  | session (locked : Bool)
  /-- The agent is told of a login, unless it is still at one. -/
  | login (credentials : Bytes)
  /-- It performs its next operation, unless it waits. -/
  | agent (env : WinEnv)
  /-- It opens an instance that is free, and writes its message. -/
  | openPipe (g : ℕ)
  | createChannel
  /-- The thread of an instance performs its next call. -/
  | wait (g : ℕ) (ok : Bool)
  /-- `DestroyChannel` terminates the thread and disconnects the pipe. -/
  | destroyChannel (g : ℕ)

def step (s : System) : Event → System
  | .session locked => { s with shared.win.locked := locked }
  | .login credentials =>
    if (s.thread ()).rest.IsDone then
      { s with shared := { s.shared with
          win := { s.shared.win with calls := 0, attempts := 0 }
          logins := s.shared.logins ++ [credentials] } }.start () (login credentials)
        ⟨credentials, maxRetries, false⟩
    else s
  | .agent env => if s.waits then s else s.act handle attempts () env
  | .openPipe g =>
    match s.writes, s.shared.instances[g]? with
    | some message, some x =>
      if x.client = none ∧ x.stage ≠ .closed then
        { s.update g fun x ↦ x.connect s.shared.current message with shared.calling := some g }
      else s
    | _, _ => s
  | .createChannel => { s with shared.instances := s.shared.instances ++ [.new] }
  | .wait g ok => s.update g fun x ↦ x.wait ok
  | .destroyChannel g => s.update g .disconnect

/-- Nothing has happened. -/
def init (win : WinState) : System where
  shared := ⟨win, [], [], none, []⟩
  thread _ := ⟨pure (), ⟨[], 0, false⟩⟩

/-! ## The agent's part -/

section Agent

variable {α : Type} {m : Account} {credentials : Bytes}

/-- The operation is no attempt. -/
def IsOther (a : WinAct) : Prop := ∀ message, a ≠ .callNamedPipe message

theorem allows_of_isOther {a : WinAct} (ha : IsOther a) (m : Account) : attempts.allows m a := by
  cases a with
  | callNamedPipe message => exact absurd rfl (ha message)
  | _ => trivial

theorem next_of_isOther {a : WinAct} (ha : IsOther a) (m : Account) (r : a.Resp) :
    attempts.next m a r = m := by
  cases a with
  | callNamedPipe message => exact absurd rfl (ha message)
  | _ => rfl

/-- What makes no attempt leaves the account alone. -/
theorem wp_of_performs {p : WinM α} (hp : p.Performs IsOther)
    {Q : Except PyExn α → Account → Prop} (hQ : ∀ r, Q r m) : attempts.wp p Q m := by
  induction p with
  | ret x => exact hQ _
  | raise e => exact hQ _
  | call a k ih =>
    refine ⟨allows_of_isOther hp.1 m, fun r _ ↦ ?_⟩
    rw [next_of_isOther hp.1]
    exact ih r (hp.2 r)

theorem performs_call {p : WinM (Except PyExn α)} (hp : p.Performs IsOther) :
    (CommandHandlerWin.call p).Performs IsOther :=
  hp.bind fun r ↦ performs_ofExcept r

theorem performs_log (record : LoginLog) : (log record).Performs IsOther :=
  performs_perform fun _ h ↦ (by cases h)

theorem performs_setSoftwareSASPolicy (value : Option RegValue) :
    (setSoftwareSASPolicy value).Performs IsOther := by
  cases value with
  | none => trivial
  | some value =>
    have hopen : openKey.Performs IsOther := performs_call (performs_perform fun _ h ↦ (by cases h))
    have hquery : queryValue.Performs IsOther :=
      performs_call (performs_perform fun _ h ↦ (by cases h))
    have hold : oldValue.Performs IsOther := by
      refine Performs.tryExcept (hquery.bind fun _ ↦ trivial) fun e ↦ ?_
      split <;> trivial
    have hset : (setValue value).Performs IsOther :=
      performs_call (performs_perform fun _ h ↦ (by cases h))
    exact hopen.bind fun _ ↦ hold.bind fun _ ↦ hset.bind fun _ ↦ trivial

theorem performs_performSAS : performSAS.Performs IsOther := by
  have hsas : findSas.Performs IsOther := performs_perform fun _ h ↦ (by cases h)
  have hsend : sendSAS.Performs IsOther := performs_call (performs_perform fun _ h ↦ (by cases h))
  refine hsas.bind fun sas ↦ ?_
  split
  · exact (performs_log _).bind fun _ ↦ (performs_setSoftwareSASPolicy _).bind fun _ ↦
      hsend.bind fun _ ↦ (performs_setSoftwareSASPolicy _).bind fun _ ↦ trivial
  · trivial

/-- An attempt that fails is followed by the next one, if there is one. -/
theorem follows_writeCredentials (left : ℕ) (hmessage : m.message = credentials)
    (hleft : m.left = left) (hacked : m.acked = false) :
    attempts.Follows (writeCredentials credentials left) m := by
  induction left generalizing m with
  | zero => trivial
  | succ left ih =>
    refine wp_bind.mpr (wp_tryExcept.mpr (wp_bind.mpr ⟨trivial, fun _ _ ↦ wp_bind.mpr
      (wp_bind.mpr ⟨⟨hmessage.symm, hleft ▸ left.succ_pos, hacked⟩, fun r _ ↦ ?_⟩)⟩))
    rcases r with e | _
    · refine wp_bind.mpr ⟨trivial, fun _ _ ↦ wp_bind.mpr ⟨trivial, fun _ _ ↦ ?_⟩⟩
      exact ih hmessage (by simp [attempts, hleft]) rfl
    · exact wp_bind.mpr ⟨trivial, fun _ _ ↦ trivial⟩

theorem follows_login :
    attempts.Follows (login credentials) ⟨credentials, maxRetries, false⟩ := by
  refine wp_bind.mpr ⟨trivial, fun (locked : Bool) _ ↦ ?_⟩
  cases locked with
  | false => exact ⟨trivial, fun _ _ ↦ trivial⟩
  | true =>
    refine wp_bind.mpr (wp_of_performs (performs_performSAS.tryExcept fun _ ↦ performs_log _)
      fun r ↦ ?_)
    rcases r with e | _
    · trivial
    · exact follows_writeCredentials maxRetries rfl rfl rfl

end Agent

/-! ## What holds whatever the other end does -/

/-- What the logins have written and what was replied to them, where the agent's account of the last
one is `m`. -/
structure Books (s : Shared) (m : Account) : Prop where
  /-- The agent waits at an instance it has opened. -/
  calling : ∀ g, s.calling = some g →
    ∃ x, s.instances[g]? = some x ∧ x.client = some s.current
  message : 0 < m.left → s.logins.getLast? = some m.message
  client : ∀ x ∈ s.instances, ∀ n, x.client = some n →
    0 < n ∧ s.logins[n - 1]? = some x.message
  opened_current : s.opened s.current + m.left ≤ maxRetries + s.calling.elim 0 fun _ ↦ 1
  opened_le : ∀ n, s.opened n ≤ maxRetries
  opened_new : ∀ n > s.current, s.opened n = 0
  acked_current : m.acked = false → s.acked.count s.current = 0
  acked_le : ∀ n, s.acked.count n ≤ 1
  acked_new : ∀ n > s.current, s.acked.count n = 0

section Books

variable {s : Shared} {m : Account} {x : Instance} {g : ℕ} {f : Instance → Instance}

theorem countP_modify {p : Instance → Bool} {l : List Instance} (h : l[g]? = some x) :
    (l.modify g f).countP p + (if p x then 1 else 0) = l.countP p + if p (f x) then 1 else 0 := by
  induction l generalizing g with
  | nil => cases h
  | cons y l ih =>
    cases g with
    | zero =>
      obtain rfl : y = x := Option.some.inj h
      rw [List.modify_zero_cons, List.countP_cons, List.countP_cons]
      omega
    | succ g =>
      have hl := ih (show l[g]? = some x from h)
      rw [List.modify_succ_cons, List.countP_cons, List.countP_cons]
      omega

/-- What does not make a difference to `p` does not change the count. -/
theorem countP_modify_of_eq {p : Instance → Bool} {l : List Instance}
    (h : ∀ x, l[g]? = some x → p (f x) = p x) : (l.modify g f).countP p = l.countP p := by
  cases hx : l[g]? with
  | none => rw [List.modify_eq_self (List.getElem?_eq_none_iff.mp hx)]
  | some x =>
    have hcount := countP_modify (p := p) (f := f) hx
    rw [h x hx] at hcount
    exact Nat.add_right_cancel hcount

/-- Nothing is written, and nothing replied. -/
theorem Books.update (h : Books s m) (g : ℕ) (hclient : ∀ x, (f x).client = x.client)
    (hmessage : ∀ x, (f x).message = x.message) :
    Books { s with instances := s.instances.modify g f } m := by
  have hopened (n : ℕ) : (s.instances.modify g f).countP (fun x ↦ x.client = some n) =
      s.opened n := countP_modify_of_eq fun x _ ↦ by rw [hclient]
  refine ⟨fun g' hg' ↦ ?_, h.message, fun y hy n hn ↦ ?_, ?_, fun n ↦ ?_, fun n hn ↦ ?_,
    h.acked_current, h.acked_le, h.acked_new⟩
  · obtain ⟨x, hx, hcl⟩ := h.calling g' hg'
    by_cases hgg : g = g'
    · exact ⟨f x, by simp [hgg, hx], (hclient x).trans hcl⟩
    · exact ⟨x, by simp [hgg, hx], hcl⟩
  · obtain ⟨i, hi⟩ := List.mem_iff_getElem?.mp hy
    rw [List.getElem?_modify] at hi
    obtain ⟨x, hx, rfl⟩ := Option.map_eq_some_iff.mp hi
    have hmem := List.mem_of_getElem? hx
    by_cases hgi : g = i
    · rw [if_pos hgi] at hn ⊢
      rw [hclient] at hn
      rw [hmessage]
      exact h.client x hmem n hn
    · rw [if_neg hgi] at hn ⊢
      exact h.client x hmem n hn
  · exact (congrArg (· + m.left) (hopened _)).trans_le h.opened_current
  · exact (hopened n).trans_le (h.opened_le n)
  · exact (hopened n).trans (h.opened_new n hn)

theorem Books.create (h : Books s m) :
    Books { s with instances := s.instances ++ [.new] } m := by
  have hopened (n : ℕ) :
      (s.instances ++ [Instance.new]).countP (fun x ↦ x.client = some n) = s.opened n := by
    rw [List.countP_append]
    rfl
  refine ⟨fun g hg ↦ ?_, h.message, fun x hx n hn ↦ ?_, ?_, fun n ↦ ?_, fun n hn ↦ ?_,
    h.acked_current, h.acked_le, h.acked_new⟩
  · obtain ⟨x, hx, hcl⟩ := h.calling g hg
    exact ⟨x, List.getElem?_append_left (List.getElem?_eq_some_iff.mp hx).1 ▸ hx, hcl⟩
  · rcases List.mem_append.mp hx with hx | hx
    · exact h.client x hx n hn
    · obtain rfl := List.mem_singleton.mp hx
      cases hn
  · exact (congrArg (· + m.left) (hopened _)).trans_le h.opened_current
  · exact (hopened n).trans_le (h.opened_le n)
  · exact (hopened n).trans (h.opened_new n hn)

/-- A new login: nothing has been written for it. -/
theorem Books.login (h : Books s m) (hcalling : s.calling = none) (win : WinState)
    (credentials : Bytes) :
    Books { s with win, logins := s.logins ++ [credentials] } ⟨credentials, maxRetries, false⟩ := by
  set t : Shared := { s with win, logins := s.logins ++ [credentials] }
  have hcurrent : t.current = s.current + 1 := List.length_append
  have hlt : s.current < t.current := by omega
  refine ⟨fun g hg ↦ ?_, fun _ ↦ List.getLast?_concat, fun x hx n hn ↦ ?_, ?_, h.opened_le,
    fun n hn ↦ h.opened_new n (hlt.trans hn), fun _ ↦ h.acked_new _ hlt, h.acked_le,
    fun n hn ↦ h.acked_new n (hlt.trans hn)⟩
  · rw [show s.calling = some g from hg] at hcalling
    cases hcalling
  · obtain ⟨hpos, hget⟩ := h.client x hx n hn
    exact ⟨hpos, List.getElem?_append_left (List.getElem?_eq_some_iff.mp hget).1 ▸ hget⟩
  · have hopened : t.opened t.current = 0 := h.opened_new _ hlt
    rw [hopened, Nat.zero_add]
    exact Nat.le_add_right ..

/-- An attempt that could not open an instance. -/
theorem Books.fail (h : Books s m) (hacked : m.acked = false) :
    Books s { m with left := m.left - 1, acked := false } := by
  refine ⟨h.calling, fun hleft ↦ h.message (Nat.zero_lt_of_lt (Nat.lt_of_lt_pred hleft)), h.client,
    ?_, h.opened_le, h.opened_new, fun _ ↦ h.acked_current hacked, h.acked_le, h.acked_new⟩
  exact (Nat.add_le_add_left (Nat.sub_le ..) _).trans h.opened_current

/-- The end of an attempt, which was replied to or not. -/
theorem Books.return (h : Books s m) (hcalling : s.calling = some g) (hleft : 0 < m.left)
    (hacked : m.acked = false) (ok : Bool) :
    Books { s with calling := none, acked := if ok then s.acked ++ [s.current] else s.acked }
      { m with left := m.left - 1, acked := ok } := by
  have hzero := h.acked_current hacked
  have hopened := h.opened_current
  rw [hcalling] at hopened
  have hcount (n : ℕ) : (if ok then s.acked ++ [s.current] else s.acked).count n =
      s.acked.count n + if ok ∧ s.current = n then 1 else 0 := by
    cases ok with
    | false => simp
    | true => simp [List.count_append, List.count_singleton]
  refine ⟨nofun, fun hleft ↦ h.message (Nat.zero_lt_of_lt (Nat.lt_of_lt_pred hleft)), h.client,
    ?_, h.opened_le, h.opened_new, fun hok ↦ ?_, fun n ↦ (hcount n).trans_le ?_,
    fun n hn ↦ (hcount n).trans ?_⟩
  · show s.opened s.current + (m.left - 1) ≤ maxRetries + 0
    dsimp only [Option.elim_some] at hopened
    omega
  · rw [show ok = false from hok]
    exact hzero
  · have hle := h.acked_le n
    by_cases hn : s.current = n
    · rw [← hn, hzero]
      split <;> omega
    · rwa [if_neg fun hok ↦ hn hok.2]
  · rw [if_neg fun hok ↦ hn.ne hok.2]
    exact h.acked_new n hn

/-- An attempt that has opened an instance. -/
theorem Books.open (h : Books s m) (hcalling : s.calling = none) (hleft : 0 < m.left)
    (hx : s.instances[g]? = some x) (hfree : x.client = none) :
    Books { s with
      calling := some g
      instances := s.instances.modify g fun x ↦ x.connect s.current m.message } m := by
  have hlast := h.message hleft
  have hopened := h.opened_current
  rw [hcalling, Option.elim_none] at hopened
  have hpos : 0 < s.current := by
    refine List.length_pos_iff.mpr fun hnil ↦ ?_
    rw [hnil] at hlast
    cases hlast
  have hcount (n : ℕ) : (s.instances.modify g fun x ↦ x.connect s.current m.message).countP
      (fun x ↦ x.client = some n) = s.opened n + if s.current = n then 1 else 0 := by
    have hmodify := countP_modify (p := fun x ↦ x.client = some n)
      (f := fun x ↦ x.connect s.current m.message) hx
    simpa [hfree, Instance.connect, Shared.opened] using hmodify
  refine ⟨fun g' hg' ↦ ?_, h.message, fun y hy n hn ↦ ?_, ?_, fun n ↦ (hcount n).trans_le ?_,
    fun n (hn : s.current < n) ↦ (hcount n).trans ?_, h.acked_current, h.acked_le, h.acked_new⟩
  · obtain rfl := Option.some.inj hg'
    exact ⟨x.connect s.current m.message, by simp [hx], rfl⟩
  · obtain ⟨i, hi⟩ := List.mem_iff_getElem?.mp hy
    rw [List.getElem?_modify] at hi
    obtain ⟨x', hx', rfl⟩ := Option.map_eq_some_iff.mp hi
    by_cases hgi : g = i
    · rw [if_pos hgi] at hn ⊢
      obtain rfl : s.current = n := Option.some.inj hn
      exact ⟨hpos, List.getLast?_eq_getElem?.symm.trans hlast⟩
    · rw [if_neg hgi] at hn ⊢
      exact h.client x' (List.mem_of_getElem? hx') n hn
  · have hcurrent := hcount s.current
    rw [if_pos rfl] at hcurrent
    refine (congrArg (· + m.left) hcurrent).trans_le ?_
    show s.opened s.current + 1 + m.left ≤ maxRetries + 1
    omega
  · have hle := h.opened_le n
    by_cases hn : s.current = n
    · rw [if_pos hn, ← hn]
      omega
    · rwa [if_neg hn]
  · rw [if_neg hn.ne]
    exact h.opened_new n hn

end Books

/-- What holds in every run. -/
structure Inv (s : System) : Prop where
  inOrder : s.InOrder attempts fun _ ↦ True
  books : Books s.shared (s.thread ()).account
  /-- Who waits at an instance is at a call of the pipe. -/
  calls : ∀ g, s.shared.calling = some g → ∃ message, s.next? = some (.callNamedPipe message)

section Inv

variable {s t : System}

theorem inv_init (win : WinState) : Inv (init win) where
  inOrder _ := trivial
  books := ⟨nofun, nofun, nofun, Nat.zero_le _, fun _ ↦ Nat.zero_le _, fun _ _ ↦ rfl, fun _ ↦ rfl,
    fun _ ↦ Nat.zero_le _, fun _ _ ↦ rfl⟩
  calls := nofun

theorem Inv.calling_of_isDone (h : Inv s) (hdone : (s.thread ()).rest.IsDone) :
    s.shared.calling = none := by
  cases hcalling : s.shared.calling with
  | none => rfl
  | some g =>
    obtain ⟨message, hnext⟩ := h.calls g hcalling
    rw [System.next?] at hnext
    cases hrest : (s.thread ()).rest with
    | ret x => rw [hrest] at hnext; cases hnext
    | raise x => rw [hrest] at hnext; cases hnext
    | call a k => rw [hrest] at hdone; exact hdone.elim

/-- What the agent is about to write is allowed. -/
theorem Inv.allows (h : Inv s) {message : Bytes} (hnext : s.next? = some (.callNamedPipe message)) :
    message = (s.thread ()).account.message ∧ 0 < (s.thread ()).account.left ∧
      (s.thread ()).account.acked = false := by
  have hwp := h.inOrder ()
  rw [System.next?] at hnext
  cases hrest : (s.thread ()).rest with
  | ret x => rw [hrest] at hnext; cases hnext
  | raise x => rw [hrest] at hnext; cases hnext
  | call a k =>
    rw [hrest] at hnext hwp
    obtain rfl := Option.some.inj hnext
    exact hwp.1

/-- Who is about to write is at a call of the pipe, and not at an instance. -/
theorem writes_eq_some {message : Bytes} (h : s.writes = some message) :
    s.next? = some (.callNamedPipe message) ∧ s.shared.calling = none := by
  rw [System.writes] at h
  split at h
  · rename_i message' hnext hcalling
    obtain rfl := Option.some.inj h
    exact ⟨hnext, hcalling⟩
  · cases h

/-- What an operation of the agent comes to. -/
inductive Performed (s t : System) : Prop where
  | other (win : WinState) (hcalling : s.shared.calling = none)
      (hshared : t.shared = { s.shared with win })
      (haccount : (t.thread ()).account = (s.thread ()).account)
  | failed (hcalling : s.shared.calling = none) (hacked : (s.thread ()).account.acked = false)
      (hshared : t.shared = s.shared)
      (haccount : (t.thread ()).account = { (s.thread ()).account with
        left := (s.thread ()).account.left - 1, acked := false })
  | ended (g : ℕ) (hcalling : s.shared.calling = some g)
      (hover : s.shared.answered g = true ∨ s.shared.closed g = true)
      (hleft : 0 < (s.thread ()).account.left) (hacked : (s.thread ()).account.acked = false)
      (hshared : t.shared = { s.shared with
        calling := none
        acked := if s.shared.answered g then s.shared.acked ++ [s.shared.current]
          else s.shared.acked })
      (haccount : (t.thread ()).account = { (s.thread ()).account with
        left := (s.thread ()).account.left - 1, acked := s.shared.answered g })

theorem next?_eq {a : WinAct} {k : a.Resp → Prog WinAct.Resp PyExn Unit}
    (hrest : (s.thread ()).rest = .call a k) : s.next? = some a := by
  rw [System.next?, hrest]
  rfl

/-- Every operation of the agent is one of these, and leaves it in order. -/
theorem Inv.performed (h : Inv s) (env : WinEnv) :
    step s (.agent env) = s ∨ (step s (.agent env)).InOrder attempts (fun _ ↦ True) ∧
      Performed s (step s (.agent env)) := by
  rw [step]
  split
  · exact .inl rfl
  · rename_i hwaits
    have horder : (s.act handle attempts () env).InOrder attempts fun _ ↦ True :=
      Pool.inOrder_act h.inOrder fun _ _ ↦ trivial
    rcases h.inOrder.act_cases handle () env with hact | ⟨a, k, hrest, -, hact⟩
    · exact .inl hact
    · refine .inr ⟨horder, ?_⟩
      have hnext := next?_eq hrest
      have hother (ha : IsOther a) : s.shared.calling = none := by
        cases hcalling : s.shared.calling with
        | none => rfl
        | some g =>
          obtain ⟨message, hm⟩ := h.calls g hcalling
          exact absurd (Option.some.inj (hnext.symm.trans hm)) (ha message)
      rw [hact]
      cases a with
      | callNamedPipe message =>
        obtain ⟨-, hleft, hacked⟩ := h.allows hnext
        cases hcalling : s.shared.calling with
        | none =>
          have hhandle : handle env (.callNamedPipe message) s.shared =
              (.error .osError, s.shared) := by rw [handle, hcalling]
          rw [hhandle]
          exact .failed hcalling hacked rfl rfl
        | some g =>
          have hover : s.shared.answered g = true ∨ s.shared.closed g = true := by
            by_contra hnot
            rw [not_or, Bool.not_eq_true, Bool.not_eq_true] at hnot
            refine hwaits ?_
            rw [System.waits, hnext, hcalling]
            dsimp only
            rw [hnot.1, hnot.2]
            rfl
          by_cases hanswered : s.shared.answered g = true
          · have hhandle : handle env (.callNamedPipe message) s.shared = (.ok (), { s.shared with
                calling := none, acked := s.shared.acked ++ [s.shared.current] }) := by
              rw [handle, hcalling]
              exact if_pos hanswered
            rw [hhandle]
            exact .ended g hcalling hover hleft hacked (by rw [if_pos hanswered])
              (by rw [hanswered]; rfl)
          · have hhandle : handle env (.callNamedPipe message) s.shared =
                (.error .osError, { s.shared with calling := none }) := by
              rw [handle, hcalling]
              exact if_neg hanswered
            rw [hhandle]
            exact .ended g hcalling hover hleft hacked (by rw [if_neg hanswered])
              (by rw [Bool.eq_false_iff.mpr hanswered]; rfl)
      | _ => exact .other _ (hother fun _ ↦ nofun) rfl rfl

theorem wait_client (x : Instance) (ok : Bool) : (x.wait ok).client = x.client := by
  rw [Instance.wait]
  split
  · split
    · rfl
    · split <;> rfl
  all_goals rfl

theorem wait_message (x : Instance) (ok : Bool) : (x.wait ok).message = x.message := by
  rw [Instance.wait]
  split
  · split
    · rfl
    · split <;> rfl
  all_goals rfl

/-- What a thread does to its instance keeps the invariant. -/
theorem Inv.update (h : Inv s) (g : ℕ) {f : Instance → Instance}
    (hclient : ∀ x, (f x).client = x.client) (hmessage : ∀ x, (f x).message = x.message) :
    Inv (s.update g f) :=
  ⟨h.inOrder, h.books.update g hclient hmessage, h.calls⟩

/-- **The invariant**: one step. -/
theorem inv_step (h : Inv s) (e : Event) : Inv (step s e) := by
  cases e with
  | session locked => exact ⟨h.inOrder, { h.books with }, h.calls⟩
  | login credentials =>
    rw [step]
    split
    · rename_i hdone
      have hnone := h.calling_of_isDone hdone
      set t : System := { s with shared := { s.shared with
        win := { s.shared.win with calls := 0, attempts := 0 }
        logins := s.shared.logins ++ [credentials] } }
      have hstart : t.start () (login credentials) ⟨credentials, maxRetries, false⟩ =
          ⟨t.shared, Function.update s.thread ()
            ⟨login credentials, ⟨credentials, maxRetries, false⟩⟩⟩ := if_pos hdone
      have horder : t.InOrder attempts fun _ ↦ True := h.inOrder
      refine ⟨Pool.inOrder_start horder follows_login, ?_, fun g hg ↦ ?_⟩
      · rw [hstart]
        exact h.books.login hnone _ credentials
      · rw [hstart] at hg
        cases hnone.symm.trans hg
    · exact h
  | agent env =>
    rcases h.performed env with hsame | ⟨horder, hperformed⟩
    · rwa [hsame]
    · cases hperformed with
      | other win hcalling hshared haccount =>
        refine ⟨horder, ?_, fun g hg ↦ ?_⟩
        · rw [hshared, haccount]
          exact { h.books with }
        · rw [hshared] at hg
          cases hcalling.symm.trans hg
      | failed hcalling hacked hshared haccount =>
        refine ⟨horder, ?_, fun g hg ↦ ?_⟩
        · rw [hshared, haccount]
          exact h.books.fail hacked
        · rw [hshared] at hg
          cases hcalling.symm.trans hg
      | ended g hcalling hover hleft hacked hshared haccount =>
        refine ⟨horder, ?_, fun g hg ↦ ?_⟩
        · rw [hshared, haccount]
          exact h.books.return hcalling hleft hacked _
        · rw [hshared] at hg
          cases hg
  | openPipe g =>
    rw [step]
    split
    · rename_i message x hwrites hx
      split
      · rename_i hfree
        obtain ⟨hnext, hcalling⟩ := writes_eq_some hwrites
        obtain ⟨rfl, hleft, -⟩ := h.allows hnext
        exact ⟨h.inOrder, h.books.open hcalling hleft hx hfree.1, fun _ _ ↦ ⟨_, hnext⟩⟩
      · exact h
    · exact h
  | createChannel => exact ⟨h.inOrder, h.books.create, h.calls⟩
  | wait g ok => exact h.update g (wait_client · ok) (wait_message · ok)
  | destroyChannel g => exact h.update g (fun _ ↦ rfl) fun _ ↦ rfl

/-- It holds in every run. -/
theorem inv_run (win : WinState) (run : List Event) : Inv (run.foldl step (init win)) :=
  List.foldlRecOn run step (inv_init win) fun _ h e _ ↦ inv_step h e

/-- **Whatever the threads of the other end do**, in any run: what they hand on of a login are its
credentials, at most three times, and it is replied to at most once. -/
theorem bounded_run (win : WinState) (run : List Event) (n : ℕ) :
    let s := (run.foldl step (init win)).shared
    s.processed n ≤ maxRetries ∧ s.acked.count n ≤ 1 ∧
      ∀ x ∈ s.instances, x.client = some n → 0 < n ∧ s.logins[n - 1]? = some x.message := by
  have hbooks := (inv_run win run).books
  refine ⟨?_, hbooks.acked_le n, fun x hx hn ↦ hbooks.client x hx n hn⟩
  refine le_trans (List.countP_mono_left fun x _ hx ↦ ?_) (hbooks.opened_le n)
  exact (Bool.and_eq_true_iff.mp hx).1

/-- The bound is attained where each thread is terminated before it replies. -/
example :
    let env : WinEnv := ⟨false, fun _ ↦ true, fun _ ↦ .replied, fun _ ↦ 0⟩
    let attempt (g : ℕ) : List Event := [.createChannel, .wait g true, .agent env, .openPipe g,
      .wait g true, .wait g true, .destroyChannel g, .agent env, .agent env, .agent env]
    let run := [.login [1], .agent env, .agent env] ++ attempt 0 ++ attempt 1 ++ attempt 2
    (run.foldl step (init ⟨true, none, [], 0, 0, []⟩)).shared.processed 1 = maxRetries := by
  decide +kernel

end Inv

/-! ## When it is handed on exactly as it is replied to -/

/-- What is handed on of a login is what it has a reply for, or is about to get one for. -/
def Exact (s : System) : Prop :=
  ∀ n, s.shared.processed n = s.shared.acked.count n + s.shared.due n

/-- No instance is disconnected while the agent waits for what it owes, and none replies without
having handed on. -/
def Prompt (s : System) : Event → Prop
  | .wait g ok => ∀ x, s.shared.instances[g]? = some x →
    (x.stage = .replying → ok = true → x.client.isSome → x.fate = .processed) ∧
      (x.stage = .disconnecting → s.shared.calling = some g → x.owes = false)
  | .destroyChannel g => ∀ x, s.shared.instances[g]? = some x → s.shared.calling = some g →
    x.owes = false
  | _ => True

/-- The instance is consistent, where the agent waits at it or not. -/
structure Instance.Sound (x : Instance) (called : Prop) : Prop where
  free : x.client = none → x.fate = .dropped ∧ x.answered = false
  answered : x.answered = true → x.stage = .disconnecting
  processed : x.fate = .processed → x.stage ≠ .connecting ∧ x.stage ≠ .reading
  reading : x.stage = .reading → x.client ≠ none
  /-- The agent does not go away before it is replied to. -/
  called : x.client ≠ none → x.stage ≠ .closed → x.answered = false → called

section Sound

variable {x : Instance} {p : Prop}

theorem sound_new : Instance.new.Sound p :=
  ⟨fun _ ↦ ⟨rfl, rfl⟩, nofun, nofun, nofun, fun h ↦ absurd rfl h⟩

theorem Instance.Sound.disconnect (h : x.Sound p) : x.disconnect.Sound p where
  free hfree := ⟨by rw [Instance.disconnect, (h.free hfree).1]; rfl, rfl⟩
  answered := nofun
  processed _ := ⟨nofun, nofun⟩
  reading := nofun
  called _ hopen := absurd rfl hopen

theorem Instance.Sound.connect (h : x.Sound p) (n : ℕ) (message : Bytes) :
    (x.connect n message).Sound True where
  free := nofun
  answered := h.answered
  processed := nofun
  reading _ := nofun
  called _ _ _ := trivial

theorem Instance.Sound.answered_eq_false (h : x.Sound p) (hstage : x.stage ≠ .disconnecting) :
    x.answered = false :=
  Bool.eq_false_iff.mpr fun hanswered ↦ hstage (h.answered hanswered)

/-- A call that leaves what was said and done alone, and the pipe open. -/
theorem Instance.Sound.stage (h : x.Sound p) (hanswered : x.answered = false)
    (hopen : x.stage ≠ .closed) {stage : Stage} (hreading : stage = .reading → x.client ≠ none)
    (hprocessed : x.fate = .processed → stage ≠ .connecting ∧ stage ≠ .reading) :
    Instance.Sound { x with stage } p where
  free := h.free
  answered hyes := absurd (hanswered.symm.trans hyes) nofun
  processed := hprocessed
  reading := hreading
  called hclient _ _ := h.called hclient hopen hanswered

/-- **What a thread does** keeps its instance consistent. -/
theorem Instance.Sound.wait (h : x.Sound p) (ok : Bool) : (x.wait ok).Sound p := by
  rw [Instance.wait]
  split
  · rename_i hstage
    have hanswered : x.answered = false := h.answered_eq_false (by rw [hstage]; nofun)
    have hunread (hdone : x.fate = .processed) : False := (h.processed hdone).1 hstage
    split
    · exact h.stage hanswered (by rw [hstage]; nofun) nofun fun hdone ↦ (hunread hdone).elim
    · split
      · rename_i hclient
        exact h.stage hanswered (by rw [hstage]; nofun)
          (fun _ ↦ Option.isSome_iff_ne_none.mp hclient) fun hdone ↦ (hunread hdone).elim
      · exact h
  · rename_i hstage
    have hclient := h.reading hstage
    exact ⟨fun hnone ↦ absurd hnone hclient,
      fun hyes ↦ absurd (hstage.symm.trans (h.answered hyes)) nofun, fun _ ↦ ⟨nofun, nofun⟩, nofun,
      fun _ _ hno ↦ h.called hclient (by rw [hstage]; nofun) hno⟩
  · rename_i hstage
    refine ⟨fun hnone ↦ ⟨(h.free hnone).1, ?_⟩, fun _ ↦ rfl, fun _ ↦ ⟨nofun, nofun⟩, nofun,
      fun hclient _ _ ↦ h.called hclient (by rw [hstage]; nofun) ?_⟩
    · show (ok && x.client.isSome) = false
      rw [hnone, Option.isSome_none, Bool.and_false]
    · exact h.answered_eq_false (by rw [hstage]; nofun)
  · exact h.disconnect
  · exact h

end Sound

/-- Every instance is consistent. -/
def Sound (s : System) : Prop :=
  ∀ g (x : Instance), s.shared.instances[g]? = some x → x.Sound (s.shared.calling = some g)

section Exact

variable {s : System} {x : Instance} {g : ℕ} {f : Instance → Instance}

theorem Instance.Sound.imp {p q : Prop} (h : x.Sound p)
    (hpq : x.client ≠ none → x.stage ≠ .closed → x.answered = false → p → q) : x.Sound q :=
  { h with called := fun hc hs ha ↦ hpq hc hs ha (h.called hc hs ha) }

theorem getElem?_modify_cases {i : ℕ} {y : Instance} {l : List Instance}
    (h : (l.modify g f)[i]? = some y) : ∃ x, l[i]? = some x ∧ y = if g = i then f x else x := by
  rw [List.getElem?_modify] at h
  obtain ⟨x, hx, rfl⟩ := Option.map_eq_some_iff.mp h
  exact ⟨x, hx, rfl⟩

theorem sound_update (h : Sound s) (hf : ∀ x p, x.Sound p → (f x).Sound p) :
    Sound (s.update g f) := by
  intro i y hy
  obtain ⟨x, hx, rfl⟩ := getElem?_modify_cases hy
  have hsound := h i x hx
  split
  · exact hf x _ hsound
  · exact hsound

theorem sound_step (hinv : Inv s) (h : Sound s) (e : Event) : Sound (step s e) := by
  cases e with
  | session locked => exact h
  | login credentials =>
    rw [step]
    split
    · rw [Pool.start]
      split <;> exact h
    · exact h
  | agent env =>
    rcases hinv.performed env with hsame | ⟨-, hperformed⟩
    · rwa [hsame]
    · cases hperformed with
      | other win hcalling hshared haccount =>
        rw [Sound, hshared]
        exact h
      | failed hcalling hacked hshared haccount =>
        rw [Sound, hshared]
        exact h
      | ended g hcalling hover hleft hacked hshared haccount =>
        rw [Sound, hshared]
        intro i x hx
        refine (h i x hx).imp fun hclient hopen hanswered hi ↦ ?_
        -- it has a reply, or is disconnected
        obtain rfl : g = i := Option.some.inj (hcalling.symm.trans hi)
        rw [Shared.answered, Shared.closed, hx, Option.any_some, hanswered] at hover
        exact absurd (of_decide_eq_true (hover.resolve_left Bool.false_ne_true)) hopen
  | openPipe g =>
    rw [step]
    split
    · rename_i message x hwrites hx
      split
      · obtain ⟨-, hcalling⟩ := writes_eq_some hwrites
        intro i y hy
        obtain ⟨x, hx, rfl⟩ := getElem?_modify_cases hy
        have hsound := h i x hx
        split
        · rename_i hgi
          refine (hsound.connect _ _).imp fun _ _ _ _ ↦ ?_
          rw [hgi]
        · refine hsound.imp fun _ _ _ hi ↦ ?_
          cases hcalling.symm.trans hi
      · exact h
    · exact h
  | createChannel =>
    intro i x hx
    change (s.shared.instances ++ [Instance.new])[i]? = some x at hx
    rcases lt_or_ge i s.shared.instances.length with hi | hi
    · rw [List.getElem?_append_left hi] at hx
      exact h i x hx
    · rw [List.getElem?_append_right hi] at hx
      obtain rfl := List.mem_singleton.mp (List.mem_of_getElem? hx)
      exact sound_new
  | wait g ok => exact sound_update h fun x p hx ↦ hx.wait ok
  | destroyChannel g => exact sound_update h fun x p hx ↦ hx.disconnect

/-- What is due is due to the login the agent is at. -/
theorem due_of_calling {t : Shared} (hcalling : t.calling = some g)
    (hx : t.instances[g]? = some x) (n : ℕ) :
    t.due n = if n = t.current then x.owes.toNat else 0 := by
  rw [Shared.due, hcalling]
  dsimp only
  rw [hx, Option.any_some]

theorem due_of_none {t : Shared} (hcalling : t.calling = none) (n : ℕ) : t.due n = 0 := by
  rw [Shared.due, hcalling]

/-- What is done to an instance the agent does not wait at makes no difference to what is due. -/
theorem due_update_of_ne (hcalling : s.shared.calling ≠ some g) (n : ℕ) :
    (s.update g f).shared.due n = s.shared.due n := by
  cases hc : s.shared.calling with
  | none => rw [due_of_none hc, due_of_none (t := (s.update g f).shared) hc]
  | some g' =>
    have hne : g ≠ g' := fun h ↦ hcalling (by rw [hc, h])
    have hget : (s.update g f).shared.instances[g']? = s.shared.instances[g']? :=
      List.getElem?_modify_ne f _ hne
    rw [Shared.due, Shared.due, show (s.update g f).shared.calling = some g' from hc, hc]
    dsimp only
    rw [hget]
    rfl

theorem toNat_injective : ∀ a b : Bool, a.toNat = b.toNat → b = a := by decide

/-- A call that hands nothing on: what is due has to stay as it is. -/
theorem exact_update_iff (h : Exact s) (hx : s.shared.instances[g]? = some x)
    (hclient : ∀ x, (f x).client = x.client)
    (hfate : (f x).fate = .processed ↔ x.fate = .processed) :
    Exact (s.update g f) ↔ (s.shared.calling = some g → (f x).owes = x.owes) := by
  have hprocessed (n : ℕ) : (s.update g f).shared.processed n = s.shared.processed n :=
    countP_modify_of_eq fun y hy ↦ by
      obtain rfl := Option.some.inj (hx.symm.trans hy)
      rw [hclient, decide_eq_decide.mpr hfate]
  by_cases hcalling : s.shared.calling = some g
  · have hget : (s.update g f).shared.instances[g]? = some (f x) := by
      show (s.shared.instances.modify g f)[g]? = _
      rw [List.getElem?_modify_eq, hx]
      rfl
    have hdue := due_of_calling (t := (s.update g f).shared) hcalling hget
    have hdue' := due_of_calling hcalling hx
    constructor
    · intro hexact _
      have hcurrent := hexact s.shared.current
      rw [hprocessed, h, hdue, hdue', if_pos rfl] at hcurrent
      have htoNat := Nat.add_left_cancel hcurrent
      rw [if_pos (show s.shared.current = (s.update g f).shared.current from rfl)] at htoNat
      exact toNat_injective _ _ htoNat
    · intro howes n
      rw [hprocessed, h, hdue, hdue', howes hcalling]
      rfl
  · refine iff_of_true (fun n ↦ ?_) fun h ↦ absurd h hcalling
    rw [hprocessed, due_update_of_ne hcalling]
    exact h n

theorem owes_of_answered_eq_false (hopen : x.stage ≠ .closed) (hanswered : x.answered = false) :
    x.owes = decide (x.fate = .processed) := by
  rw [Instance.owes, hanswered, Bool.false_or, decide_eq_true hopen, Bool.true_and]

/-- Before it has read, a thread owes nothing. -/
theorem Instance.Sound.owes_eq_false {p : Prop} (h : x.Sound p)
    (hstage : x.stage = .connecting ∨ x.stage = .reading) : x.owes = false := by
  have hne : x.stage ≠ .closed ∧ x.stage ≠ .disconnecting := by
    rcases hstage with hstage | hstage <;> rw [hstage] <;> exact ⟨nofun, nofun⟩
  rw [owes_of_answered_eq_false hne.1 (h.answered_eq_false hne.2)]
  exact decide_eq_false fun hdone ↦ hstage.elim (h.processed hdone).1 (h.processed hdone).2

/-- What is read is handed on while the agent waits for it. -/
theorem exact_read (hinv : Inv s) (h : Exact s) (hx : s.shared.instances[g]? = some x)
    (hsound : x.Sound (s.shared.calling = some g)) (hstage : x.stage = .reading)
    (hclient : ∀ x, (f x).client = x.client) (hdone : (f x).fate = .processed)
    (howes : (f x).owes = true) : Exact (s.update g f) := by
  have hanswered : x.answered = false := hsound.answered_eq_false (by rw [hstage]; nofun)
  have hcalling := hsound.called (hsound.reading hstage) (by rw [hstage]; nofun) hanswered
  obtain ⟨x', hx', hcurrent⟩ := hinv.books.calling g hcalling
  obtain rfl := Option.some.inj (hx.symm.trans hx')
  have hget : (s.update g f).shared.instances[g]? = some (f x) := by
    show (s.shared.instances.modify g f)[g]? = _
    rw [List.getElem?_modify_eq, hx]
    rfl
  intro n
  have hcount := countP_modify (f := f)
    (p := fun x ↦ x.client = some n && x.fate = .processed) hx
  have hnot : x.fate ≠ .processed := fun hdone ↦ (hsound.processed hdone).2 hstage
  have hdue := due_of_calling hcalling hx n
  rw [hsound.owes_eq_false (.inr hstage), Bool.toNat_false, ite_self] at hdue
  have hdue' := due_of_calling (t := (s.update g f).shared) hcalling hget n
  have hexact := h n
  rw [hdue, Nat.add_zero] at hexact
  rw [howes, Bool.toNat_true] at hdue'
  rw [hclient, hcurrent, hdone] at hcount
  simp only [hnot, decide_false, Bool.and_false, Bool.false_eq_true, if_false, decide_true,
    Bool.and_true, decide_eq_true_eq, Option.some.injEq, Nat.add_zero] at hcount
  show (s.shared.instances.modify g f).countP _ = s.shared.acked.count n + _
  rw [hcount, hdue', ← hexact]
  refine congrArg (s.shared.processed n + ·) (if_congr ?_ rfl rfl)
  exact eq_comm

theorem update_of_none (hx : s.shared.instances[g]? = none) : s.update g f = s := by
  rw [System.update, List.modify_eq_self (List.getElem?_eq_none_iff.mp hx)]

theorem disconnect_fate (x : Instance) : x.disconnect.fate = .processed ↔ x.fate = .processed := by
  rw [Instance.disconnect]
  cases x.fate <;> simp

theorem disconnect_owes (x : Instance) : x.disconnect.owes = false := rfl

/-- A call of a thread. -/
theorem exact_wait_iff (hinv : Inv s) (hall : Sound s) (h : Exact s) (g : ℕ) (ok : Bool) :
    Exact (s.update g fun x ↦ x.wait ok) ↔ Prompt s (.wait g ok) := by
  cases hx : s.shared.instances[g]? with
  | none =>
    rw [update_of_none hx]
    exact iff_of_true h fun x hx' ↦ nomatch hx.symm.trans hx'
  | some x =>
    have hsound := hall g x hx
    have hprompt : Prompt s (.wait g ok) ↔
        (x.stage = .replying → ok = true → x.client.isSome → x.fate = .processed) ∧
          (x.stage = .disconnecting → s.shared.calling = some g → x.owes = false) := by
      rw [Prompt, hx]
      exact ⟨fun h ↦ h x rfl, fun h y hy ↦ by obtain rfl := Option.some.inj hy; exact h⟩
    have hiff := exact_update_iff (f := (·.wait ok)) h hx (wait_client · ok)
    rw [hprompt]
    cases hstage : x.stage with
    | connecting =>
      have hwait : ∃ stage, x.wait ok = { x with stage } ∧ stage ≠ .closed := by
        rw [Instance.wait, hstage]
        dsimp only
        split
        · exact ⟨_, rfl, nofun⟩
        · split
          · exact ⟨_, rfl, nofun⟩
          · exact ⟨_, rfl, by rw [hstage]; nofun⟩
      obtain ⟨stage, hwait, hopen⟩ := hwait
      refine iff_of_true ((hiff (by rw [hwait])).mpr fun _ ↦ ?_) ⟨nofun, nofun⟩
      have hanswered : x.answered = false := hsound.answered_eq_false (by rw [hstage]; nofun)
      rw [hwait, owes_of_answered_eq_false (by rw [hstage]; nofun) hanswered]
      exact owes_of_answered_eq_false (x := { x with stage }) hopen hanswered
    | reading =>
      refine iff_of_true ?_ ⟨nofun, nofun⟩
      have hanswered : x.answered = false := hsound.answered_eq_false (by rw [hstage]; nofun)
      have hwait : x.wait ok = { x with
          fate := if ok ∧ 0 < x.message.length ∧ x.message.length ≤ dwPipeBuffer then .processed
            else .dropped
          stage := .replying } := by rw [Instance.wait, hstage]
      have howes : (x.wait ok).owes = decide ((x.wait ok).fate = .processed) :=
        owes_of_answered_eq_false (by rw [hwait]; nofun) (by rw [hwait]; exact hanswered)
      by_cases hdone : (x.wait ok).fate = .processed
      · exact exact_read hinv h hx hsound hstage (wait_client · ok) hdone
          (howes.trans (decide_eq_true hdone))
      · refine (hiff ⟨fun h ↦ absurd h hdone, fun h ↦ ?_⟩).mpr fun _ ↦ ?_
        · exact absurd hstage (hsound.processed h).2
        · rw [howes, decide_eq_false hdone, hsound.owes_eq_false (.inr hstage)]
    | replying =>
      have hanswered : x.answered = false := hsound.answered_eq_false (by rw [hstage]; nofun)
      have hopen : x.stage ≠ .closed := by rw [hstage]; nofun
      have hwait : x.wait ok =
          { x with answered := ok && x.client.isSome, stage := .disconnecting } := by
        rw [Instance.wait, hstage]
      have howes := owes_of_answered_eq_false hopen hanswered
      rw [hiff (by rw [hwait]), howes, hwait, and_iff_left nofun]
      by_cases hok : ok = true ∧ x.client.isSome = true
      · have hcalling := hsound.called (Option.isSome_iff_ne_none.mp hok.2) hopen hanswered
        simp [Instance.owes, hok.1, hok.2, hcalling, eq_comm]
      · refine iff_of_true (fun _ ↦ ?_) fun _ hyes hsome ↦ absurd ⟨hyes, hsome⟩ hok
        rw [← Bool.and_eq_true, Bool.not_eq_true] at hok
        rw [Instance.owes, hok]
        rfl
    | disconnecting =>
      have hwait : x.wait ok = x.disconnect := by rw [Instance.wait, hstage]
      rw [hiff (by rw [hwait]; exact disconnect_fate x), hwait, disconnect_owes,
        and_iff_right nofun]
      exact ⟨fun h _ hc ↦ (h hc).symm, fun h hc ↦ (h rfl hc).symm⟩
    | closed =>
      have hwait : x.wait ok = x := by rw [Instance.wait, hstage]
      exact iff_of_true ((hiff (by rw [hwait])).mpr fun _ ↦ by rw [hwait]) ⟨nofun, nofun⟩

/-- **One step**: the condition for what is handed on to stay what is replied to. -/
theorem exact_step_iff (hinv : Inv s) (hall : Sound s) (h : Exact s) (e : Event) :
    Exact (step s e) ↔ Prompt s e := by
  cases e with
  | session locked => exact iff_of_true h trivial
  | login credentials =>
    refine iff_of_true ?_ trivial
    rw [step]
    split
    · rename_i hdone
      have hnone := hinv.calling_of_isDone hdone
      rw [Pool.start]
      split
      · intro n
        rw [due_of_none (by exact hnone)]
        exact (h n).trans (by rw [due_of_none hnone])
      · rename_i hnot
        exact absurd hdone hnot
    · exact h
  | agent env =>
    refine iff_of_true ?_ trivial
    rcases hinv.performed env with hsame | ⟨-, hperformed⟩
    · rwa [hsame]
    · cases hperformed with
      | other win hcalling hshared haccount =>
        rw [Exact, hshared]
        exact h
      | failed hcalling hacked hshared haccount =>
        rw [Exact, hshared]
        exact h
      | ended g hcalling hover hleft hacked hshared haccount =>
        obtain ⟨x, hx, -⟩ := hinv.books.calling g hcalling
        have hsound := hall g x hx
        have howes : x.owes = x.answered := by
          rw [Shared.answered, Shared.closed, hx, Option.any_some, Option.any_some,
            decide_eq_true_eq] at hover
          rw [Instance.owes]
          rcases hover with hanswered | hclosed
          · rw [hsound.answered hanswered, hanswered]
            rfl
          · rw [hsound.answered_eq_false (by rw [hclosed]; decide), hclosed]
            rfl
        intro n
        have hexact := h n
        rw [due_of_calling hcalling hx, howes] at hexact
        have hanswered : s.shared.answered g = x.answered := by
          rw [Shared.answered, hx, Option.any_some]
        rw [hshared, due_of_none rfl, hanswered]
        refine hexact.trans ?_
        cases x.answered with
        | false => rw [Bool.toNat_false, ite_self, if_neg (by decide)]
        | true =>
          rw [Bool.toNat_true, if_pos rfl, List.count_append, List.count_singleton, Nat.add_zero]
          exact congrArg (_ + ·) (if_congr (eq_comm.trans beq_iff_eq.symm) rfl rfl)
  | openPipe g =>
    refine iff_of_true ?_ trivial
    rw [step]
    split
    · rename_i message x hwrites hx
      split
      · rename_i hfree
        obtain ⟨-, hcalling⟩ := writes_eq_some hwrites
        set t : System :=
          { s.update g fun x ↦ x.connect s.shared.current message with shared.calling := some g }
        have hanswered := ((hall g x hx).free hfree.1).2
        have hget : t.shared.instances[g]? = some (x.connect s.shared.current message) := by
          show (s.shared.instances.modify g _)[g]? = _
          rw [List.getElem?_modify_eq, hx]
          rfl
        have howes : (x.connect s.shared.current message).owes = false :=
          owes_of_answered_eq_false hfree.2 hanswered
        intro n
        rw [due_of_calling rfl hget, howes, Bool.toNat_false, ite_self]
        have hexact := h n
        rw [due_of_none hcalling] at hexact
        refine Eq.trans (countP_modify_of_eq fun y hy ↦ ?_) hexact
        obtain rfl := Option.some.inj (hx.symm.trans hy)
        rw [hfree.1]
        simp [Instance.connect]
      · exact h
    · exact h
  | createChannel =>
    refine iff_of_true (fun n ↦ ?_) trivial
    have hprocessed : (step s .createChannel).shared.processed n = s.shared.processed n :=
      List.countP_append.trans rfl
    have hdue : (step s .createChannel).shared.due n = s.shared.due n := by
      cases hcalling : s.shared.calling with
      | none =>
        rw [due_of_none hcalling]
        exact due_of_none (t := (step s .createChannel).shared) hcalling n
      | some g =>
        obtain ⟨x, hx, -⟩ := hinv.books.calling g hcalling
        have hget : (step s .createChannel).shared.instances[g]? = some x :=
          (List.getElem?_append_left (List.getElem?_eq_some_iff.mp hx).1).trans hx
        rw [due_of_calling hcalling hx,
          due_of_calling (t := (step s .createChannel).shared) hcalling hget]
        rfl
    rw [hprocessed, hdue]
    exact h n
  | wait g ok => exact exact_wait_iff hinv hall h g ok
  | destroyChannel g =>
    cases hx : s.shared.instances[g]? with
    | none =>
      rw [step, update_of_none hx]
      exact iff_of_true h fun x hx' ↦ absurd (hx'.symm.trans hx) (Option.some_ne_none x)
    | some x =>
      have hiff := exact_update_iff (f := Instance.disconnect) h hx (fun _ ↦ rfl)
        (disconnect_fate x)
      rw [step, hiff, disconnect_owes, Prompt]
      refine ⟨fun h y hy hc ↦ ?_, fun h hc ↦ (h x hx hc).symm⟩
      obtain rfl := Option.some.inj (hx.symm.trans hy)
      exact (h hc).symm

theorem always_iff (hinv : Inv s) (hall : Sound s) (h : Exact s) (run : List Event) :
    Always step Exact s run ↔ Each step Prompt s run :=
  always_iff_each_of_inv (fun s ↦ Inv s ∧ Sound s)
    (fun _ e h hI ↦ exact_step_iff hI.1 hI.2 h e)
    (fun _ e _ hI _ ↦ ⟨inv_step hI.1 e, sound_step hI.1 hI.2 e⟩) h ⟨hinv, hall⟩ run

/-- **When what is handed on is what the agent has a reply for**, all along a run. -/
theorem always_exact_iff (win : WinState) (run : List Event) :
    Always step Exact (init win) run ↔ Each step Prompt (init win) run :=
  always_iff (inv_init win) nofun (fun _ ↦ rfl) run

/-- A login is then handed on once at most, and it was if it was replied to. -/
theorem once_of_prompt (win : WinState) (run : List Event)
    (h : Each step Prompt (init win) run) (n : ℕ) :
    (run.foldl step (init win)).shared.processed n ≤ 1 ∧
      (run.foldl step (init win)).shared.acked.count n ≤
        (run.foldl step (init win)).shared.processed n := by
  have halways := (always_iff (inv_init win) nofun (fun _ ↦ rfl) run).mpr h
  have hexact := always_iff_prefixes.mp halways run List.prefix_rfl n
  have hinv := inv_run win run
  set s := run.foldl step (init win)
  refine ⟨?_, by omega⟩
  have hle := hinv.books.acked_le n
  cases hcalling : s.shared.calling with
  | none =>
    rw [due_of_none hcalling] at hexact
    omega
  | some g =>
    -- it has no reply yet
    obtain ⟨message, hnext⟩ := hinv.calls g hcalling
    have hzero := hinv.books.acked_current (hinv.allows hnext).2.2
    obtain ⟨x, hx, -⟩ := hinv.books.calling g hcalling
    rw [due_of_calling hcalling hx] at hexact
    have howes := Bool.toNat_le x.owes
    by_cases hn : n = s.shared.current
    · rw [if_pos hn, hn, hzero] at hexact
      rw [hn]
      omega
    · rw [if_neg hn] at hexact
      omega

end Exact

end GuestAgent.PipeDelivery
