import GuestAgent.Agent.System
import GuestAgent.Credentials.World
import GuestAgent.Library.TwoRuns

/-!
# The password does not show

On Linux the listener hands a login to `CredServer.user_authenticated`, and with the thread of the
channel that is made for it, three parts of the agent write to the log while the password is in
their hands: `parseCommand`, which logs the block with a mask, the server, and the channel.

Here the three are put together.  `LoginAct` has the operations of all of them, `withLogin` lets
`commandHandler.login` run the server, and the channels are threads next to the listener.  Whatever
comes from outside is the environment of an operation: the number that is drawn for a token, who
connects, what the kernel reports, what is received, and which calls fail.

`observed_login` compares two runs in which everything is the same but the password of one login.
Their logs are the same, record by record, and so are the messages on the channel to the host.
-/

set_option autoImplicit false

namespace GuestAgent.Secrecy

open Effect Effect.Prog

/-! ## The parts together -/

/-- The operations of the listener, the server and the channels. -/
inductive LoginAct where
  | agent (a : Act)
  | server (a : ServerAct)
  | channel (c : ℕ) (a : ChannelAct)
  /-- `Error while reading the virtio-serial channel.`, with the exception. -/
  | logException (e : PyExn)

@[reducible] def LoginAct.Resp : LoginAct → Type
  | agent a => a.Resp
  | server a => a.Resp
  | channel _ a => a.Resp
  | logException _ => Unit

abbrev LoginM := Prog LoginAct.Resp PyExn

def ofServer {α : Type} (p : ServerM α) : LoginM α := p.embed .server fun _ r ↦ r

def ofChannel {α : Type} (c : ℕ) (p : ChannelM α) : LoginM α := p.embed (.channel c) fun _ r ↦ r

/-- `CommandHandlerLinux.login` runs `user_authenticated`. -/
def withLogin {α : Type} : AgentM α → LoginM α
  | .ret x => .ret x
  | .raise e => .raise e
  | .call (.commandHandler (.login credentials)) k => do
    let r ← (ofServer (userAuthenticated credentials)).attempt
    withLogin (k r)
  | .call a k => .call (.agent a) fun r ↦ withLogin (k r)

/-- A command in the loop of `doListen`, which logs what `parseCommand` raises. -/
def listened (name : PyObj) (args : Dict) : LoginM Unit :=
  (withLogin (parseCommand name args)).tryExcept fun e ↦ perform (LoginAct.logException e)

/-- A record of the log.  One of the server's has the list of the users who may connect. -/
inductive Record where
  | agent (r : LogRecord)
  | server (r : ServerLog) (allowed : List Int)
  | channel (r : ChannelLog)
  /-- `Emitting user authenticated signal (%s).` -/
  | signal (token : Bytes)
  | exception (e : PyExn)

/-- The fields of a channel, and whether its thread was started. -/
structure Fields where
  allowed : List Int
  credentials : Option (Bytes × Bytes)
  started : Bool

/-- What the threads share. -/
structure Shared where
  agent : AgentState
  /-- `_cred_channel`. -/
  slot : Option ℕ
  /-- The number of channels made so far. -/
  made : ℕ
  channels : ℕ → Fields
  /-- The number of connections accepted so far. -/
  conns : ℕ
  log : List Record

/-- The answers from outside, for one operation. -/
structure Outside where
  agent : Env
  /-- What `randint` draws. -/
  number : ℕ
  getpwnam : Bytes → Option Int
  startThread : Except PyExn Unit
  hasDbus : Bool
  userAuthenticated : Bytes → Except PyExn Unit
  join : Except PyExn Unit
  socket : Except PyExn Unit
  bind : Except PyExn Unit
  listen : Except PyExn Unit
  accept : Except PyExn Unit
  passCredentials : Except PyExn Unit
  recvmsg : Recvmsg
  recv : Except PyExn Bytes
  send : Except PyExn Unit
  closeConn : Except PyExn Unit
  closeChannel : Except PyExn Unit

/-- What an operation of the agent writes to the log. -/
def recordsOf : Act → List Record
  | .log r => [.agent r]
  | _ => []

/-- The list that a record of the server tells of. -/
def Shared.allowedIn (s : Shared) : ServerLog → List Int
  | .allowedUsers => (s.slot.map fun c ↦ (s.channels c).allowed).getD []
  | _ => []

def Shared.modify (s : Shared) (c : ℕ) (f : Fields → Fields) : Shared :=
  { s with channels := Function.update s.channels c (f (s.channels c)) }

/-- Answer an operation of the server. -/
def handleServer (out : Outside) : (a : ServerAct) → Shared → a.Resp × Shared
  | .readSlot, s => (s.slot, s)
  | .writeSlot c, s => ((), { s with slot := c })
  | .newChannel, s => (s.made, { s with made := s.made + 1 })
  | .appendAllowed c uid, s =>
    ((), s.modify c fun ch ↦ { ch with allowed := ch.allowed ++ [uid] })
  | .getpwnam name, s => (out.getpwnam name, s)
  | .randint _ _, s => (out.number, s)
  | .writeCredentials c credentials, s =>
    ((), s.modify c fun ch ↦ { ch with credentials := some credentials })
  | .startThread c, s =>
    match out.startThread with
    | .ok () => (.ok (), s.modify c fun ch ↦ { ch with started := true })
    | .error e => (.error e, s)
  | .hasDbus, s => (out.hasDbus, s)
  | .userAuthenticated token, s =>
    (out.userAuthenticated token, { s with log := s.log ++ [.signal token] })
  | .join _, s => (out.join, s)
  | .log record, s => ((), { s with log := s.log ++ [.server record (s.allowedIn record)] })

/-- Answer an operation of channel `c`. -/
def handleChannel (out : Outside) (c : ℕ) : (a : ChannelAct) → Shared → a.Resp × Shared
  | .socket, s => (out.socket, s)
  | .bind, s => (out.bind, s)
  | .listen, s => (out.listen, s)
  | .accept, s => (out.accept.map fun _ ↦ s.conns, { s with conns := s.conns + 1 })
  | .passCredentials _, s => (out.passCredentials, s)
  | .recvmsg _, s => (out.recvmsg, s)
  | .recv _, s => (out.recv, s)
  | .send _ _, s => (out.send, s)
  | .closeConn _, s => (out.closeConn, s)
  | .closeChannel, s => (out.closeChannel, s)
  | .readAllowed, s => ((s.channels c).allowed, s)
  | .readCredentials, s => ((s.channels c).credentials, s)
  | .log record, s => ((), { s with log := s.log ++ [.channel record] })

/-- Answer one operation. -/
def handle (out : Outside) : (a : LoginAct) → Shared → a.Resp × Shared
  | .agent a, s =>
    ((GuestAgent.handle .linux out.agent a s.agent).1,
      { s with agent := (GuestAgent.handle .linux out.agent a s.agent).2,
               log := s.log ++ recordsOf a })
  | .server a, s => handleServer out a s
  | .channel c a, s => handleChannel out c a s
  | .logException e, s => ((), { s with log := s.log ++ [.exception e] })

/-! ## Runs -/

/-- The threads are the listener and the channels. -/
abbrev System := Pool LoginAct.Resp PyExn Shared Unit (Option ℕ)

/-- Nothing is kept of what a thread has done. -/
def noAccount : Monitor LoginAct.Resp Unit := ⟨fun _ _ ↦ True, fun _ _ _ ↦ True, fun _ _ _ ↦ ()⟩

/-- The channel whose thread an operation waits for. -/
def LoginAct.waits : LoginAct → Option ℕ
  | server (.join c) => some c
  | _ => none

/-- A thread may go on: that of a channel once it was started, and the listener unless it waits for
the thread of a channel that has not ended. -/
def enabled (s : System) : Option ℕ → Bool
  | some c => (s.shared.channels c).started
  | none =>
    match (s.thread none).rest.next?.bind LoginAct.waits with
    | some c => decide (s.thread (some c)).rest.IsDone
    | none => true

/-- What happens. -/
inductive LoginStep where
  /-- The host sends a command, and the listener handles it unless it is still at another one. -/
  | command (name : PyObj) (args : Dict)
  /-- A thread performs its next operation, if it may go on. -/
  | act (i : Option ℕ) (out : Outside)

def step (s : System) : LoginStep → System
  | .command name args => s.start none (listened name args) ()
  | .act i out => if enabled s i then s.act handle noAccount i out else s

/-- No channel has been made, and the listener has nothing to do. -/
def init (agent : AgentState) : System where
  shared := ⟨agent, none, 0, fun _ ↦ ⟨[], none, false⟩, 0, []⟩
  thread
    | none => ⟨pure (), ()⟩
    | some c => ⟨ofChannel c channelRun, ()⟩

/-- The system after some steps. -/
def exec (agent : AgentState) (steps : List LoginStep) : System := steps.foldl step (init agent)

/-- The records of the log, and the messages to the host. -/
def observed (s : System) : List Record × List Sent := (s.shared.log, s.shared.agent.written)

/-- A login, with any other arguments. -/
def login (args : Dict) (password : Text) : LoginStep :=
  .command (.str (key "login")) (args.set (key "password") (.str (.unicode password)))

/-! ## What two runs have in common -/

/-- What may be seen of the fields of a channel: everything but the block. -/
def Fields.shown (f : Fields) : List Int × Option Bytes × Bool :=
  (f.allowed, f.credentials.map Prod.fst, f.started)

/-- Everything is the same but the blocks. -/
structure Shared.Same (s t : Shared) : Prop where
  agent : s.agent = t.agent
  slot : s.slot = t.slot
  made : s.made = t.made
  channels : ∀ c, (s.channels c).shown = (t.channels c).shown
  conns : s.conns = t.conns
  log : s.log = t.log

/-- The operations wait for the same thread. -/
def LoginAct.Like (a b : LoginAct) : Prop := a.waits = b.waits

theorem LoginAct.Like.refl (a : LoginAct) : a.Like a := rfl

/-- Two programs that do alike, whatever they know of the block. -/
abbrev SameDoing {α β : Type} (V : α → β → Prop) : LoginM α → LoginM β → Prop :=
  Lockstep handle Shared.Same LoginAct.Like V

section Operations

variable {s t : Shared}

theorem Shared.Same.modify (h : s.Same t) (c : ℕ) {f g : Fields → Fields}
    (hfg : ∀ x y, x.shown = y.shown → (f x).shown = (g y).shown) :
    (s.modify c f).Same (t.modify c g) := by
  refine { h with channels := fun c' ↦ ?_ }
  simp only [Shared.modify]
  by_cases hc : c' = c
  · subst hc
    rw [Function.update_self, Function.update_self]
    exact hfg _ _ (h.channels c')
  · rw [Function.update_of_ne hc, Function.update_of_ne hc, h.channels]

theorem shown_eq_iff {f g : Fields} :
    f.shown = g.shown ↔ f.allowed = g.allowed ∧
      f.credentials.map Prod.fst = g.credentials.map Prod.fst ∧ f.started = g.started := by
  rw [Fields.shown, Fields.shown, Prod.mk.injEq, Prod.mk.injEq]

theorem Shared.Same.allowedIn (h : s.Same t) (r : ServerLog) : s.allowedIn r = t.allowedIn r := by
  cases r <;> try rfl
  rw [Shared.allowedIn, Shared.allowedIn, h.slot]
  congr 2
  funext c
  exact (shown_eq_iff.mp (h.channels c)).1

/-- The operations of the server are answered the same. -/
theorem handleServer_same (out : Outside) (a : ServerAct) (h : s.Same t) :
    (handleServer out a s).1 = (handleServer out a t).1 ∧
      (handleServer out a s).2.Same (handleServer out a t).2 := by
  cases a with
  | readSlot => exact ⟨h.slot, h⟩
  | writeSlot c => exact ⟨rfl, { h with slot := rfl }⟩
  | newChannel => exact ⟨h.made, { h with made := congrArg (· + 1) h.made }⟩
  | appendAllowed c uid =>
    refine ⟨rfl, ?_⟩
    simp only [handleServer]
    refine h.modify c fun x y hxy ↦ ?_
    simpa [shown_eq_iff] using hxy
  | writeCredentials c credentials =>
    refine ⟨rfl, ?_⟩
    simp only [handleServer]
    refine h.modify c fun x y hxy ↦ ?_
    simp_all [shown_eq_iff]
  | startThread c =>
    cases hstart : out.startThread with
    | error e => simpa [handleServer, hstart] using h
    | ok =>
      simp only [handleServer, hstart, true_and]
      refine h.modify c fun x y hxy ↦ ?_
      simp_all [shown_eq_iff]
  | getpwnam | randint | hasDbus | join => exact ⟨rfl, h⟩
  | userAuthenticated token => exact ⟨rfl, { h with log := congrArg (· ++ _) h.log }⟩
  | log record =>
    refine ⟨rfl, { h with log := ?_ }⟩
    simp only [handleServer, h.log, h.allowedIn]

/-- What a channel does but for looking up its credentials is answered the same. -/
theorem handleChannel_same (out : Outside) (c : ℕ) {a : ChannelAct} (ha : a ≠ .readCredentials)
    (h : s.Same t) :
    (handleChannel out c a s).1 = (handleChannel out c a t).1 ∧
      (handleChannel out c a s).2.Same (handleChannel out c a t).2 := by
  cases a with
  | readCredentials => exact absurd rfl ha
  | readAllowed => exact ⟨(shown_eq_iff.mp (h.channels c)).1, h⟩
  | accept =>
    refine ⟨?_, { h with conns := congrArg (· + 1) h.conns }⟩
    simp only [handleChannel, h.conns]
  | log record => exact ⟨rfl, { h with log := congrArg (· ++ _) h.log }⟩
  | socket | bind | listen | passCredentials | recvmsg | recv | send | closeConn | closeChannel =>
    exact ⟨rfl, h⟩

theorem handleAgent_same (out : Outside) (a : Act) (h : s.Same t) :
    (handle out (.agent a) s).1 = (handle out (.agent a) t).1 ∧
      (handle out (.agent a) s).2.Same (handle out (.agent a) t).2 := by
  simp only [handle, h.agent, true_and]
  exact { h with agent := rfl, log := congrArg (· ++ _) h.log }

end Operations

/-! ## The programs -/

/-- Two programs of the server. -/
abbrev SameServing {α β : Type} (V : α → β → Prop) : ServerM α → ServerM β → Prop :=
  Lockstep handleServer Shared.Same (fun a b ↦ LoginAct.Like (.server a) (.server b)) V

/-- Two programs of channel `c`. -/
abbrev SameChannel {α β : Type} (c : ℕ) (V : α → β → Prop) : ChannelM α → ChannelM β → Prop :=
  Lockstep (fun out ↦ handleChannel out c) Shared.Same
    (fun a b ↦ LoginAct.Like (.channel c a) (.channel c b)) V

theorem sameServing_refl {α : Type} (p : ServerM α) : SameServing Eq p p := by
  have hp : p.Performs fun _ ↦ True := performs_of_forall (fun _ ↦ trivial) p
  refine Lockstep.refl (fun a _ ↦ ?_) (fun a _ out s t h ↦ handleServer_same out a h) hp
  exact LoginAct.Like.refl _

/-- The program does not look up its credentials. -/
abbrev Unaware {α : Type} (p : ChannelM α) : Prop := p.Performs (· ≠ ChannelAct.readCredentials)

theorem unaware_log (r : ChannelLog) : Unaware (ChannelM.log r) := performs_perform (by simp)

theorem unaware_closeConn (conn : ℕ) : Unaware (ChannelM.closeConn conn) :=
  (performs_perform (by simp)).bind performs_ofExcept

theorem unaware_readCred (conn : ℕ) : Unaware (readCred conn) := by
  have hpass : Unaware (ChannelM.passCredentials conn) :=
    (performs_perform (by simp)).bind performs_ofExcept
  have hrecvmsg : Unaware (ChannelM.recvmsg conn) := performs_perform (by simp)
  refine hpass.bind fun _ ↦ hrecvmsg.bind fun r ↦ (unaware_log _).bind fun _ ↦ ?_
  cases r.control with
  | none => trivial
  | some msg =>
    dsimp only
    split
    · exact (unaware_log _).bind fun _ ↦ trivial
    · trivial

theorem sameChannel_refl {α : Type} (c : ℕ) {p : ChannelM α} (hp : Unaware p) :
    SameChannel c Eq p p := by
  refine Lockstep.refl (fun a _ ↦ ?_) (fun a ha ↦ ?_) hp
  · exact LoginAct.Like.refl _
  · exact fun out s t h ↦ handleChannel_same out c ha h

/-- The credentials are stored with another block. -/
theorem sameServing_start (c : ℕ) (token x y : Bytes) :
    SameServing Eq (ServerM.start c (token, x)) (ServerM.start c (token, y)) := by
  have hwrite : SameServing (fun _ _ ↦ True) (ServerM.writeCredentials c (token, x))
      (ServerM.writeCredentials c (token, y)) := by
    refine Lockstep.perform (a := ServerAct.writeCredentials c (token, x))
      (b := ServerAct.writeCredentials c (token, y)) rfl fun out s t h ↦ ⟨trivial, ?_⟩
    simp only [handleServer]
    refine h.modify c fun f g hfg ↦ ?_
    simp_all [shown_eq_iff]
  exact hwrite.bind fun _ _ _ ↦ sameServing_refl _

theorem sameServing_runChannel (token x y : Bytes) :
    SameServing Eq (runChannel token x) (runChannel token y) := by
  refine (sameServing_refl _).bind ?_
  rintro _ _ rfl
  refine (sameServing_refl _).bind ?_
  rintro c _ rfl
  exact (sameServing_start c token x y).bind fun _ _ _ ↦ sameServing_refl _

/-- **The server does not look at the block.** -/
theorem sameServing_userAuthenticated (x y : Bytes) :
    SameServing Eq (userAuthenticated x) (userAuthenticated y) := by
  refine (sameServing_refl _).bind ?_
  rintro slot _ rfl
  cases slot with
  | some c => exact sameServing_refl _
  | none =>
    refine (sameServing_refl _).bind ?_
    rintro c _ rfl
    refine (sameServing_refl _).bind fun _ _ _ ↦ (sameServing_refl _).bind ?_
    rintro c _ rfl
    refine (sameServing_refl _).bind fun _ _ _ ↦ (sameServing_refl _).bind ?_
    rintro n _ rfl
    refine (sameServing_refl _).bind fun _ _ _ ↦ sameServing_runChannel (strNat n) x y

section Channel

variable (c conn : ℕ)

/-- What is looked up has the same token. -/
theorem sameChannel_credentials :
    SameChannel c (fun x y ↦ x.1 = y.1) ChannelM.credentials ChannelM.credentials := by
  have hread : SameChannel c (fun x y ↦ Option.map Prod.fst x = Option.map Prod.fst y)
      (Prog.perform ChannelAct.readCredentials) (Prog.perform ChannelAct.readCredentials) :=
    Lockstep.perform (a := ChannelAct.readCredentials) (b := ChannelAct.readCredentials) rfl
      fun out s t h ↦ ⟨(shown_eq_iff.mp (h.channels c)).2.1, h⟩
  refine hread.bind fun x y hxy ↦ ?_
  rcases x with _ | x <;> rcases y with _ | y
  · exact .raise _
  · cases hxy
  · cases hxy
  · exact .ret (Option.some.inj hxy)

theorem sameChannel_send (x y : Bytes) :
    SameChannel c Eq (ChannelM.send conn x) (ChannelM.send conn y) := by
  have hsend : SameChannel c (V := (Eq : Except PyExn Unit → Except PyExn Unit → Prop))
      (Prog.perform (ChannelAct.send conn x)) (Prog.perform (ChannelAct.send conn y)) :=
    Lockstep.perform (a := ChannelAct.send conn x) (b := ChannelAct.send conn y) rfl
      fun out s t h ↦ ⟨rfl, h⟩
  refine hsend.bind ?_
  rintro r _ rfl
  exact .ofExcept r

/-- **Whom the block is sent to, and what is logged of it, does not depend on it.** -/
theorem sameChannel_serve : SameChannel c Eq (serve conn) (serve conn) := by
  have hrecv : Unaware (ChannelM.recv conn) :=
    (performs_perform (by simp)).bind performs_ofExcept
  refine (sameChannel_refl c hrecv).bind ?_
  rintro token _ rfl
  by_cases htoken : token = []
  · simp only [htoken, if_true]
    exact .ret rfl
  · simp only [htoken, if_false]
    refine (sameChannel_credentials c).bind fun x y hxy ↦ ?_
    rw [← hxy]
    by_cases hx : token = x.1
    · simp only [if_pos hx]
      exact (sameChannel_refl c (unaware_log _)).bind fun _ _ _ ↦
        (sameChannel_credentials c).bind fun x y _ ↦
          (sameChannel_send c conn x.2 y.2).bind fun _ _ _ ↦
            sameChannel_refl c (unaware_closeConn conn)
    · simp only [if_neg hx]
      exact sameChannel_refl c ((unaware_log _).bind fun _ ↦ unaware_closeConn conn)

theorem sameChannel_acceptOne : SameChannel c Eq acceptOne acceptOne := by
  have haccept : Unaware ChannelM.accept :=
    (performs_perform (by simp)).bind performs_ofExcept
  have hallowed : Unaware ChannelM.readAllowed :=
    performs_perform (by simp)
  refine (sameChannel_refl c haccept).bind ?_
  rintro conn _ rfl
  refine (sameChannel_refl c (unaware_readCred conn)).bind ?_
  rintro cred _ rfl
  cases cred with
  | none => exact sameChannel_refl c (unaware_log _)
  | some cred =>
    refine (sameChannel_refl c hallowed).bind ?_
    rintro allowed _ rfl
    by_cases hcred : cred.uid ∉ allowed
    · simp only [if_pos hcred]
      exact sameChannel_refl c (unaware_log _)
    · simp only [if_neg hcred]
      exact (sameChannel_refl c (unaware_log _)).bind fun _ _ _ ↦ sameChannel_serve c conn

/-- **The channel's thread runs the same.** -/
theorem sameChannel_channelRun : SameChannel c Eq channelRun channelRun := by
  have hsocket : Unaware ChannelM.socket :=
    (performs_perform (by simp)).bind performs_ofExcept
  have hbind : Unaware ChannelM.bind :=
    (performs_perform (by simp)).bind performs_ofExcept
  have hlisten : Unaware ChannelM.listen :=
    (performs_perform (by simp)).bind performs_ofExcept
  have htimedOut : Unaware (do
      ChannelM.log .timedOut
      ChannelM.closeChannel) :=
    (unaware_log _).bind fun _ ↦ (performs_perform (by simp)).bind performs_ofExcept
  refine (sameChannel_refl c hsocket).bind fun _ _ _ ↦ (sameChannel_refl c hbind).bind fun _ _ _ ↦
    (sameChannel_refl c hlisten).bind fun _ _ _ ↦ (sameChannel_acceptOne c).tryExcept fun e ↦ ?_
  split
  · exact sameChannel_refl c htimedOut
  · exact .raise _

end Channel

/-! ## The listener -/

theorem withLogin_bind {α β : Type} (p : AgentM α) (f : α → AgentM β) :
    withLogin (p >>= f) = withLogin p >>= fun x ↦ withLogin (f x) := by
  induction p with
  | ret x => rfl
  | raise e => rfl
  | call a k ih =>
    cases a with
    | commandHandler c =>
      cases c with
      | login credentials =>
        have hbind : withLogin (Prog.call (.commandHandler (.login credentials)) k >>= f) =
            ((ofServer (userAuthenticated credentials)).attempt >>= fun r ↦
              withLogin (k r >>= f)) := rfl
        have hcall : withLogin (Prog.call (.commandHandler (.login credentials)) k) =
            ((ofServer (userAuthenticated credentials)).attempt >>= fun r ↦ withLogin (k r)) := rfl
        rw [hbind, hcall, bind_assoc]
        exact congrArg _ (funext ih)
      | _ => exact congrArg (Prog.call _) (funext ih)
    | _ => exact congrArg (Prog.call _) (funext ih)

/-- A program of the agent does alike with itself, the logins in it included. -/
theorem sameDoing_withLogin {α : Type} (p : AgentM α) :
    SameDoing Eq (withLogin p) (withLogin p) := by
  induction p with
  | ret x => exact .ret rfl
  | raise e => exact .raise e
  | call a k ih =>
    have hagent : SameDoing Eq (Prog.call (LoginAct.agent a) fun r ↦ withLogin (k r))
        (Prog.call (LoginAct.agent a) fun r ↦ withLogin (k r)) := by
      refine .call (LoginAct.Like.refl _) (fun out s t h ↦ (handleAgent_same out a h).2)
        fun out s t h ↦ ?_
      rw [(handleAgent_same out a h).1]
      exact ih _
    cases a with
    | commandHandler c =>
      cases c with
      | login credentials =>
        refine (Lockstep.embed (sameServing_refl _)).attempt.bind ?_
        rintro r _ rfl
        exact ih r
      | _ => exact hagent
    | _ => exact hagent

/-- The block of a login is made of the name and the password. -/
theorem loginCredentials_set (args : Dict) (password : Text) :
    loginCredentials (args.set (key "password") (.str (.unicode password))) =
      ((args.getItem (key "username")).bind PyObj.encode).bind fun username ↦
        packCredentials username (encodeUtf8 password) := by
  have husername : (args.set (key "password") (.str (.unicode password))).getItem
      (key "username") = args.getItem (key "username") := by
    rw [Dict.getItem, Dict.getItem, Dict.get?_set_of_ne (by decide)]
  have hpassword : (args.set (key "password") (.str (.unicode password))).getItem
      (key "password") = .ok (.str (.unicode password)) := by
    rw [Dict.getItem, Dict.get?_set_self]
  rw [loginCredentials, husername, hpassword]
  cases args.getItem (key "username") with
  | error e => rfl
  | ok username =>
    cases hencode : username.encode with
    | error e => simp only [Bind.bind, Except.bind, hencode]
    | ok username => simp only [Bind.bind, Except.bind, PyObj.encode]

/-- **The blocks look the same in the log**, or there is none, for the same reason. -/
theorem loginCredentials_cases (args : Dict) (p q : Text) :
    (∃ e, loginCredentials (args.set (key "password") (.str (.unicode p))) = .error e ∧
      loginCredentials (args.set (key "password") (.str (.unicode q))) = .error e) ∨
    ∃ x y, loginCredentials (args.set (key "password") (.str (.unicode p))) = .ok x ∧
      loginCredentials (args.set (key "password") (.str (.unicode q))) = .ok y ∧
      safeCredsRepr x = safeCredsRepr y := by
  rw [loginCredentials_set, loginCredentials_set]
  cases (args.getItem (key "username")).bind PyObj.encode with
  | error e => exact .inl ⟨e, rfl, rfl⟩
  | ok username =>
    simp only [Except.bind, packCredentials]
    by_cases hlen : username.length < 2 ^ 32
    · simp only [if_pos hlen]
      refine .inr ⟨_, _, rfl, rfl, ?_⟩
      rw [safeCredsRepr_eq hlen, safeCredsRepr_eq hlen]
    · simp only [if_neg hlen]
      exact .inl ⟨_, rfl, rfl⟩

theorem sameDoing_commandHandler (x y : Bytes) :
    SameDoing Eq (withLogin (AgentM.commandHandler (.login x)))
      (withLogin (AgentM.commandHandler (.login y))) := by
  refine (Lockstep.embed (sameServing_userAuthenticated x y)).attempt.bind ?_
  rintro r _ rfl
  exact sameDoing_withLogin _

theorem sameDoing_logException (e : PyExn) :
    SameDoing Eq (Prog.perform (LoginAct.logException e))
      (Prog.perform (LoginAct.logException e)) :=
  Lockstep.perform (a := LoginAct.logException e) (b := LoginAct.logException e)
    (LoginAct.Like.refl _) fun _ _ _ h ↦ ⟨rfl, { h with log := congrArg (· ++ _) h.log }⟩

/-- **A login does alike with any two passwords.** -/
theorem sameDoing_login (args : Dict) (p q : Text) :
    SameDoing Eq
      (listened (.str (key "login")) (args.set (key "password") (.str (.unicode p))))
      (listened (.str (key "login")) (args.set (key "password") (.str (.unicode q)))) := by
  have hname : Command.ofObj (.str (key "login")) = some .login := by decide
  refine Lockstep.tryExcept ?_ sameDoing_logException
  simp only [parseCommand, hname, withLogin_bind]
  refine (sameDoing_withLogin _).bind fun _ _ _ ↦ ?_
  obtain ⟨e, hp, hq⟩ | ⟨x, y, hp, hq, hsafe⟩ := loginCredentials_cases args p q
  · rw [hp, hq]
    exact .raise e
  · rw [hp, hq]
    refine Lockstep.bind (V := fun a b ↦ a = x ∧ b = y) (.ret ⟨rfl, rfl⟩) ?_
    rintro _ _ ⟨rfl, rfl⟩
    rw [hsafe]
    exact (sameDoing_withLogin _).bind fun _ _ _ ↦ sameDoing_commandHandler _ _

theorem sameDoing_listened (name : PyObj) (args : Dict) :
    SameDoing Eq (listened name args) (listened name args) :=
  (sameDoing_withLogin _).tryExcept sameDoing_logException

/-! ## Two runs -/

/-- The two systems differ in nothing but the blocks. -/
abbrev SameBut (s t : System) : Prop := Pool.Related handle Shared.Same LoginAct.Like s t

theorem sameBut_init (agent : AgentState) : SameBut (init agent) (init agent) where
  shared := ⟨rfl, rfl, rfl, fun _ ↦ rfl, rfl, rfl⟩
  thread
    | none => .ret rfl
    | some c => .embed (sameChannel_channelRun c)

/-- The same threads may go on. -/
theorem SameBut.enabled {s t : System} (h : SameBut s t) (i : Option ℕ) :
    enabled s i = enabled t i := by
  cases i with
  | some c => exact (shown_eq_iff.mp (h.shared.channels c)).2.2
  | none =>
    have hdone : ∀ c, (s.thread (some c)).rest.IsDone ↔ (t.thread (some c)).rest.IsDone :=
      fun c ↦ (h.thread (some c)).isDone_iff
    obtain ⟨hs, ht⟩ | ⟨a, b, hs, ht, hlike⟩ := (h.thread none).next?_cases
    · rw [Secrecy.enabled, Secrecy.enabled, hs, ht]
      rfl
    · rw [Secrecy.enabled, Secrecy.enabled, hs, ht, Option.bind_some, Option.bind_some, hlike]
      cases b.waits with
      | none => rfl
      | some c => exact decide_eq_decide.mpr (hdone c)

/-- **A step of both systems.** -/
theorem SameBut.step {s t : System} (h : SameBut s t) (e : LoginStep) :
    SameBut (step s e) (step t e) := by
  cases e with
  | command name args => exact h.start none () (sameDoing_listened name args)
  | act i out =>
    rw [Secrecy.step, Secrecy.step, h.enabled i]
    split
    · exact h.act i out
    · exact h

/-- **A run of both systems.** -/
theorem SameBut.foldl {s t : System} (h : SameBut s t) (steps : List LoginStep) :
    SameBut (steps.foldl Secrecy.step s) (steps.foldl Secrecy.step t) := by
  induction steps generalizing s t with
  | nil => exact h
  | cons e steps ih => exact ih (h.step e)

theorem SameBut.observed_eq {s t : System} (h : SameBut s t) : observed s = observed t := by
  rw [observed, observed, h.shared.log, h.shared.agent]

/-- **The log and the channel to the host do not show the password.**  Whatever came before the
login, whatever its other arguments are and whatever happens afterwards: where everything else is
the same, every record and every message is. -/
theorem observed_login (agent : AgentState) (pre post : List LoginStep) (args : Dict)
    (p q : Text) :
    observed (exec agent (pre ++ login args p :: post)) =
      observed (exec agent (pre ++ login args q :: post)) := by
  have hpre : SameBut (exec agent pre) (exec agent pre) := (sameBut_init agent).foldl pre
  have hlogin : SameBut (step (exec agent pre) (login args p))
      (step (exec agent pre) (login args q)) := hpre.start none () (sameDoing_login args p q)
  rw [exec, exec, List.foldl_append, List.foldl_append]
  exact (hlogin.foldl post).observed_eq

end GuestAgent.Secrecy
