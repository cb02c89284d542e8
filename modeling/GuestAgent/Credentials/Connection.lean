import GuestAgent.Library.Monitor
import GuestAgent.Python.Object

/-!
# The thread that waits for a connection

A `CredChannel` accepts one connection on its local socket, asks the kernel who is at the other end,
reads a token, and sends the credentials if the user is one it allows and the token is the one it
was given.  Everything it learns comes from outside: whether anyone connects, whom the kernel
reports, what is received and which calls fail.

`channelRun` is `CredChannel.run` as a program over `ChannelAct`.  What it is supposed to be careful
about is the monitor `guard`.  Its account of a channel is the connection the channel has accepted,
with what is known about it, and in that account sending is in order only where the user the kernel
reported is allowed, the first data received is the token, and nothing was sent before.
`channelRun_follows` says that the program follows it, and so that no early return, no exception and
no answer leads around a check.
-/

set_option autoImplicit false

namespace GuestAgent

open Effect Effect.Prog

/-! ## The program -/

/-- A control message of `recvmsg`, with the fields of its `ucred`. -/
structure ControlMessage where
  level : Int
  type : Int
  pid : Int
  uid : Int
  deriving DecidableEq, Repr

/-- What `recvmsg` gives, once it is not interrupted: its result and the first control message. -/
structure Recvmsg where
  ret : Int
  control : Option ControlMessage
  deriving DecidableEq, Repr

/-- `socket.SOL_SOCKET`. -/
def solSocket : Int := 1

/-- `SCM_CREDENTIALS`. -/
def scmCredentials : Int := 2

/-- What a channel writes to the log. -/
inductive ChannelLog where
  /-- `Receiving user's credential ret = %d errno = %d` -/
  | receiving (ret : Int)
  /-- `cmsgp: len=%d level=%d type=%d` -/
  | control (level type : Int)
  /-- `Error receiving user's credential from socket.` -/
  | noCredential
  /-- `User %d is not allowed to connect!` -/
  | notAllowed (uid : Int)
  /-- `Incomming connection from user: %d process: %d` -/
  | incoming (uid pid : Int)
  /-- `Sending user's credential (token: %s)` -/
  | sending (token : Bytes)
  /-- `Unexpect token was received (token: %s)` -/
  | unexpectedToken (token : Bytes)
  /-- `Credentials channel timed out.` -/
  | timedOut
  deriving DecidableEq, Repr

/-- The operations of a channel.  Connections are numbered. -/
inductive ChannelAct where
  /-- `socket.socket`, `settimeout`. -/
  | socket
  | bind
  | listen
  | accept
  /-- `conn.setsockopt(SOL_SOCKET, SO_PASSCRED, 1)`. -/
  | passCredentials (conn : ℕ)
  /-- `libc.recvmsg` with `MSG_PEEK`, repeated while it is interrupted. -/
  | recvmsg (conn : ℕ)
  /-- `conn.recv(1024)`. -/
  | recv (conn : ℕ)
  | send (conn : ℕ) (block : Bytes)
  /-- `conn.close()`. -/
  | closeConn (conn : ℕ)
  /-- `self._channel.close()`. -/
  | closeChannel
  /-- Read `self._allowed`. -/
  | readAllowed
  /-- Read `self._credentials`. -/
  | readCredentials
  | log (record : ChannelLog)

/-- What an operation answers. -/
@[reducible] def ChannelAct.Resp : ChannelAct → Type
  | accept => Except PyExn ℕ
  | recvmsg _ => Recvmsg
  | recv _ => Except PyExn Bytes
  | readAllowed => List Int
  | readCredentials => Option (Bytes × Bytes)
  | log _ => Unit
  | socket | bind | listen | passCredentials _ | send _ _ | closeConn _ | closeChannel =>
    Except PyExn Unit

/-- A piece of a channel. -/
abbrev ChannelM := Prog ChannelAct.Resp PyExn

namespace ChannelM

def socket : ChannelM Unit := do
  let r : Except PyExn Unit ← perform ChannelAct.socket
  ofExcept r

def bind : ChannelM Unit := do
  let r : Except PyExn Unit ← perform ChannelAct.bind
  ofExcept r

def listen : ChannelM Unit := do
  let r : Except PyExn Unit ← perform ChannelAct.listen
  ofExcept r

def accept : ChannelM ℕ := do
  let r : Except PyExn ℕ ← perform ChannelAct.accept
  ofExcept r

def passCredentials (conn : ℕ) : ChannelM Unit := do
  let r : Except PyExn Unit ← perform (ChannelAct.passCredentials conn)
  ofExcept r

def recvmsg (conn : ℕ) : ChannelM Recvmsg := perform (ChannelAct.recvmsg conn)

def recv (conn : ℕ) : ChannelM Bytes := do
  let r : Except PyExn Bytes ← perform (ChannelAct.recv conn)
  ofExcept r

def send (conn : ℕ) (block : Bytes) : ChannelM Unit := do
  let r : Except PyExn Unit ← perform (ChannelAct.send conn block)
  ofExcept r

def closeConn (conn : ℕ) : ChannelM Unit := do
  let r : Except PyExn Unit ← perform (ChannelAct.closeConn conn)
  ofExcept r

def closeChannel : ChannelM Unit := do
  let r : Except PyExn Unit ← perform ChannelAct.closeChannel
  ofExcept r

def readAllowed : ChannelM (List Int) := perform ChannelAct.readAllowed

/-- `self._credentials`, where it is about to be indexed. -/
def credentials : ChannelM (Bytes × Bytes) := do
  let c : Option (Bytes × Bytes) ← perform ChannelAct.readCredentials
  match c with
  | some c => pure c
  | none => raise .typeError

def log (record : ChannelLog) : ChannelM Unit := perform (ChannelAct.log record)

end ChannelM

/-- The credentials in a control message, if it is one of `SCM_CREDENTIALS`. -/
def ControlMessage.credentials (msg : ControlMessage) : Option ControlMessage :=
  if msg.level = solSocket ∧ msg.type = scmCredentials then some msg else none

/-- The user a `recvmsg` reports. -/
def Recvmsg.credentials (r : Recvmsg) : Option ControlMessage :=
  if r.ret > 0 then r.control.bind ControlMessage.credentials else none

open ChannelM

/-- `_read_cred`.  There is never a second control message: `CMSG_NXTHDR` gives none. -/
def readCred (conn : ℕ) : ChannelM (Option ControlMessage) := do
  passCredentials conn
  let r ← recvmsg conn
  log (.receiving r.ret)
  match r.control with
  | some msg => do
    if r.ret > 0 then log (.control msg.level msg.type)
    pure r.credentials
  | none => pure r.credentials

/-- The end of `run`, with a connection from a user who is allowed. -/
def serve (conn : ℕ) : ChannelM Unit := do
  let token ← recv conn
  if token = [] then pure ()
  else do
    let expected ← credentials
    if token = expected.1 then do
      log (.sending token)
      let block ← credentials
      send conn block.2
    else log (.unexpectedToken token)
    closeConn conn

/-- The `try` block of `run`. -/
def acceptOne : ChannelM Unit := do
  let conn ← accept
  match ← readCred conn with
  | none => log .noCredential
  | some cred => do
    let allowed ← readAllowed
    if cred.uid ∉ allowed then log (.notAllowed cred.uid)
    else do
      log (.incoming cred.uid cred.pid)
      serve conn

/-- `CredChannel.run`. -/
def channelRun : ChannelM Unit := do
  socket
  bind
  listen
  acceptOne.tryExcept fun
    | .socketTimeout => do
      log .timedOut
      closeChannel
    | e => raise e

/-! ## What a channel is careful about -/

/-- What is known about a connection: who accepted it, whom the kernel reported first, the first
data received, and what was handed to `send`. -/
structure Conn where
  acceptedBy : ℕ
  uid : Option Int
  first : Option Bytes
  sent : List Bytes
  deriving DecidableEq

/-- A connection that has just been accepted. -/
def Conn.new (c : ℕ) : Conn := ⟨c, none, none, []⟩

def Conn.report (conn : Conn) (r : Recvmsg) : Conn :=
  { conn with uid := conn.uid.or (r.credentials.map ControlMessage.uid) }

def Conn.receive (conn : Conn) (data : Bytes) : Conn :=
  { conn with first := conn.first.or (some data) }

def Conn.hand (conn : Conn) (block : Bytes) : Conn := { conn with sent := conn.sent ++ [block] }

/-- The block is meant for whoever is at the other end: the user is one of `allowed`, and the first
data received is the token that goes with it. -/
structure Conn.Entitled (allowed : List Int) (credentials : Option (Bytes × Bytes)) (conn : Conn)
    (block : Bytes) : Prop where
  uid : ∃ uid ∈ allowed, conn.uid = some uid
  first : ∃ token, credentials = some (token, block) ∧ conn.first = some token

/-- The block may be sent: it is meant for the other end, and nothing was sent before. -/
structure Conn.Cleared (allowed : List Int) (credentials : Option (Bytes × Bytes)) (conn : Conn)
    (block : Bytes) : Prop extends conn.Entitled allowed credentials block where
  sent : conn.sent = []

/-- What happens to a connection. -/
def Conn.next (conn : Conn) : (a : ChannelAct) → a.Resp → Conn
  | .recvmsg _, r => conn.report r
  | .recv _, .ok data => conn.receive data
  | .send _ block, _ => conn.hand block
  | _, _ => conn

/-- The connection an operation is about. -/
def ChannelAct.conn : ChannelAct → Option ℕ
  | passCredentials conn | recvmsg conn | recv conn | send conn _ | closeConn conn => some conn
  | _ => none

/-- The account of channel `c`, which allows the users `allowed` and has been given `credentials`.
-/
def guard (c : ℕ) (allowed : List Int) (credentials : Option (Bytes × Bytes)) :
    Monitor ChannelAct.Resp (Option (ℕ × Conn)) where
  allows m a :=
    (a = .accept → m = none) ∧ (∀ id, a.conn = some id → ∃ conn, m = some (id, conn)) ∧
      ∀ id block, a = .send id block →
        ∃ conn, m = some (id, conn) ∧ conn.Cleared allowed credentials block
  may _ a r := match a with
    | .readAllowed => r = allowed
    | .readCredentials => r = credentials
    | _ => True
  next m a r := match a, r with
    | .accept, .ok id => some (id, .new c)
    | a, r => m.map fun p ↦ (p.1, p.2.next a r)

section Guard

open Monitor

variable {c : ℕ} {allowed : List Int} {creds : Option (Bytes × Bytes)} {id : ℕ} {conn : Conn}
variable {m : Option (ℕ × Conn)}

/-- The account is about the connection `id` alone. -/
theorem guard_allows_conn {a : ChannelAct} (ha : a.conn = some id)
    (hsend : ∀ id block, a ≠ .send id block) :
    (guard c allowed creds).allows (some (id, conn)) a := by
  refine ⟨?_, ?_, fun id block h ↦ absurd h (hsend id block)⟩
  · rintro rfl
    cases ha
  · rintro id' hid'
    rw [ha] at hid'
    cases hid'
    exact ⟨conn, rfl⟩

theorem guard_allows_send {block : Bytes} (hclear : conn.Cleared allowed creds block) :
    (guard c allowed creds).allows (some (id, conn)) (.send id block) := by
  refine ⟨by simp, ?_, ?_⟩
  · rintro id' hid'
    cases hid'
    exact ⟨conn, rfl⟩
  · rintro id' block' hsend
    cases hsend
    exact ⟨conn, rfl, hclear⟩

/-- An operation that is about no connection is in order. -/
theorem guard_allows_other {a : ChannelAct} (ha : a.conn = none) (haccept : a ≠ .accept) :
    (guard c allowed creds).allows m a := by
  refine ⟨fun h ↦ absurd h haccept, fun id h ↦ ?_, ?_⟩
  · rw [ha] at h
    cases h
  · rintro id block rfl
    cases ha

/-- It changes nothing in the account. -/
theorem guard_next_other {a : ChannelAct} (ha : a.conn = none) (haccept : a ≠ .accept)
    (r : a.Resp) : (guard c allowed creds).next m a r = m := by
  cases a with
  | accept => exact absurd rfl haccept
  | passCredentials id => cases ha
  | recvmsg id => cases ha
  | recv id => cases ha
  | send id block => cases ha
  | closeConn id => cases ha
  | _ => cases m <;> rfl

variable {Q : Except PyExn Unit → Option (ℕ × Conn) → Prop}

theorem wp_other {a : ChannelAct} (ha : a.conn = none) (haccept : a ≠ .accept)
    {Q : Except PyExn a.Resp → Option (ℕ × Conn) → Prop}
    (hQ : ∀ r, (guard c allowed creds).may m a r → Q (.ok r) m) :
    (guard c allowed creds).wp (perform a) Q m :=
  ⟨guard_allows_other ha haccept, fun r hr ↦ by
    rw [guard_next_other ha haccept]
    exact hQ r hr⟩

theorem wp_log {record : ChannelLog} (hQ : Q (.ok ()) m) :
    (guard c allowed creds).wp (log record) Q m :=
  wp_other rfl (by simp) fun _ _ ↦ hQ

theorem wp_readAllowed {Q : Except PyExn (List Int) → Option (ℕ × Conn) → Prop}
    (hQ : Q (.ok allowed) m) : (guard c allowed creds).wp readAllowed Q m :=
  wp_other rfl (by simp) fun r hr ↦ by
    obtain rfl : r = allowed := hr
    exact hQ

theorem wp_credentials {Q : Except PyExn (Bytes × Bytes) → Option (ℕ × Conn) → Prop}
    (hQ : ∀ cred, creds = some cred → Q (.ok cred) m) (hnone : Q (.error .typeError) m) :
    (guard c allowed creds).wp credentials Q m := by
  refine wp_bind.mpr (wp_other rfl (by simp) fun r hr ↦ ?_)
  obtain rfl : r = creds := hr
  rcases r with _ | cred
  · exact hnone
  · exact hQ cred rfl

/-- Closing a connection is in order, whatever it answers. -/
theorem follows_closeConn : (guard c allowed creds).Follows (closeConn id) (some (id, conn)) :=
  wp_bind.mpr ⟨guard_allows_conn rfl (by simp), fun r _ ↦ by cases r <;> trivial⟩

theorem follows_serve (huid : ∃ uid ∈ allowed, conn.uid = some uid) (hfirst : conn.first = none)
    (hsent : conn.sent = []) :
    (guard c allowed creds).Follows (serve id) (some (id, conn)) := by
  refine wp_bind.mpr (wp_bind.mpr ⟨guard_allows_conn rfl (by simp), fun r _ ↦ ?_⟩)
  rcases r with e | token
  · trivial
  · show (guard c allowed creds).wp (if token = [] then _ else _) _
      (some (id, conn.receive token))
    split
    · trivial
    · refine wp_bind.mpr (wp_credentials (fun expected hexpected ↦ ?_) trivial)
      dsimp only
      split
      · rename_i heq
        refine wp_bind.mpr (wp_log (wp_bind.mpr (wp_credentials (fun block hblock ↦ ?_) trivial)))
        obtain rfl : expected = block := Option.some.inj (hexpected.symm.trans hblock)
        have hclear : (conn.receive token).Cleared allowed creds expected.2 :=
          ⟨⟨huid, token, by rw [hexpected, heq], by rw [Conn.receive, hfirst]; rfl⟩, hsent⟩
        refine wp_bind.mpr (wp_bind.mpr ⟨guard_allows_send hclear, fun r _ ↦ ?_⟩)
        rcases r with e | _
        · trivial
        · exact follows_closeConn
      · exact wp_bind.mpr (wp_log follows_closeConn)

/-- What `_read_cred` returns is whom the kernel reports, and it leaves nothing else behind. -/
theorem wp_readCred {Q : Except PyExn (Option ControlMessage) → Option (ℕ × Conn) → Prop}
    (hok : ∀ r, Q (.ok r.credentials) (some (id, conn.report r)))
    (herror : ∀ e, Q (.error e) (some (id, conn))) :
    (guard c allowed creds).wp (readCred id) Q (some (id, conn)) := by
  refine wp_bind.mpr (wp_bind.mpr ⟨guard_allows_conn rfl (by simp), fun r _ ↦ ?_⟩)
  rcases r with e | _
  · exact herror e
  · refine wp_bind.mpr ⟨guard_allows_conn rfl (by simp), fun r _ ↦ wp_bind.mpr (wp_log ?_)⟩
    dsimp only
    split
    · split
      · exact wp_bind.mpr (wp_log (hok r))
      · exact hok r
    · exact hok r

theorem follows_acceptOne : (guard c allowed creds).Follows acceptOne none := by
  have hallow : (guard c allowed creds).allows none .accept :=
    ⟨fun _ ↦ rfl, fun id hid ↦ (by cases hid), fun id block h ↦ (by cases h)⟩
  refine wp_bind.mpr (wp_bind.mpr ⟨hallow, fun r _ ↦ ?_⟩)
  rcases r with e | id
  · trivial
  · refine wp_bind.mpr (wp_readCred (fun r ↦ ?_) fun _ ↦ trivial)
    rcases hcred : r.credentials with _ | cred
    · exact wp_log trivial
    · refine wp_bind.mpr (wp_readAllowed ?_)
      dsimp only
      split
      · exact wp_log trivial
      · rename_i hmem
        rw [not_not] at hmem
        refine wp_bind.mpr (wp_log (follows_serve ⟨cred.uid, hmem, ?_⟩ rfl rfl))
        rw [Conn.report, hcred]
        rfl

theorem wp_except {a : ChannelAct} (ha : a.conn = none) (haccept : a ≠ .accept)
    {f : a.Resp → Except PyExn Unit} (hQ : ∀ r, Q r m) :
    (guard c allowed creds).wp (perform a >>= fun r ↦ ofExcept (f r)) Q m :=
  wp_bind.mpr (wp_other ha haccept fun r _ ↦ wp_ofExcept _ |>.mpr (hQ (f r)))

/-- **A channel follows its guard**, whatever it is answered. -/
theorem follows_channelRun : (guard c allowed creds).Follows channelRun none := by
  have htimeout : ∀ (e : PyExn) (m : Option (ℕ × Conn)), (guard c allowed creds).Follows
      ((match e with
        | .socketTimeout => do
          log .timedOut
          closeChannel
        | e => raise e) : ChannelM Unit) m := by
    intro e m
    split
    · exact wp_bind.mpr (wp_log (wp_except rfl (by simp) fun _ ↦ trivial))
    · trivial
  refine wp_bind.mpr (wp_except rfl (by simp) fun r ↦ ?_)
  rcases r with e | _
  · trivial
  · refine wp_bind.mpr (wp_except rfl (by simp) fun r ↦ ?_)
    rcases r with e | _
    · trivial
    · refine wp_bind.mpr (wp_except rfl (by simp) fun r ↦ ?_)
      rcases r with e | _
      · trivial
      · refine wp_tryExcept.mpr (wp_mono (fun out m _ ↦ ?_) follows_acceptOne)
        rcases out with e | _
        · exact htimeout e m
        · trivial

end Guard
end GuestAgent
