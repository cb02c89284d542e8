import GuestAgent.Credentials.Connection
import GuestAgent.Credentials.Server

/-!
# Logins and whoever connects

The server and the channels it starts are threads, and anyone on the machine may connect to the
socket of a channel at any time.  `World` is the state they share, with the programs they have yet
to run, and `World.Step` is one operation of one of them.  Every answer that comes from outside is
left open: which steps fail, whether anyone connects before the time-out, as which user and with
what token.

A channel remembers the login it was made for, with the block to hand out and the token drawn for
it, and a connection remembers the channel that accepted it.  The programs never see this; it is
there to say what must not happen.  `World.Guarded` says that a block is handed to `send` only on a
connection that the channel of its own login accepted, from an allowed user, after the token of that
login was received on it, and once at most.  `GuestAgent.Credentials.Guarded` shows that it always
holds.
-/

set_option autoImplicit false

namespace GuestAgent

open Effect Effect.Prog

/-! ## The state -/

/-- A login, with the token drawn for it. -/
structure Login where
  number : ℕ
  block : Bytes
  token : Option Bytes
  deriving DecidableEq

/-- Where the thread of a channel is. -/
inductive Thread where
  | created
  | running (rest : ChannelM Unit)
  | ended

/-- A channel, and the login it was made for. -/
structure Channel where
  login : Login
  /-- `_allowed`. -/
  allowed : List Int
  /-- `_credentials`. -/
  credentials : Option (Bytes × Bytes)
  thread : Thread

/-- A login command that is being handled: the channel made for it, and what is left to run. -/
structure Call where
  number : ℕ
  block : Bytes
  channel : Option ℕ
  rest : ServerM Unit

/-- The server, the channels and the connections they have accepted. -/
structure World where
  /-- `_cred_channel`. -/
  slot : Option ℕ
  /-- Has `CredServer.run` set `_dbus`? -/
  hasDbus : Bool
  /-- The number of login commands so far. -/
  logins : ℕ
  call : Option Call
  channels : List Channel
  conns : List Conn

def World.init : World := ⟨none, false, 0, none, [], []⟩

def Channel.setToken (token : Bytes) (ch : Channel) : Channel :=
  { ch with login := { ch.login with token := some token } }

/-! ## Steps -/

/-- The answers the server can get. -/
def ServerAct.may (w : World) : (a : ServerAct) → a.Resp → Prop
  | .readSlot, r => r = w.slot
  | .newChannel, c => c = w.channels.length
  | .randint a b, n => a ≤ n ∧ n ≤ b
  | .hasDbus, r => r = w.hasDbus
  | .startThread c, r => r = .ok () → ∃ ch, w.channels[c]? = some ch ∧ ch.thread = .created
  | .join c, r => r = .ok () → ∃ ch, w.channels[c]? = some ch ∧ ch.thread = .ended
  | _, _ => True

/-- What an operation of the server does to the channels. -/
def ServerAct.effect (w : World) (call : Call) : (a : ServerAct) → a.Resp → List Channel
  | .newChannel, _ => w.channels ++ [⟨⟨call.number, call.block, none⟩, [], none, .created⟩]
  | .appendAllowed c uid, _ =>
    w.channels.modify c fun ch ↦ { ch with allowed := ch.allowed ++ [uid] }
  | .randint _ _, n =>
    match call.channel with
    | some c => w.channels.modify c (Channel.setToken (strNat n))
    | none => w.channels
  | .writeCredentials c credentials, _ =>
    w.channels.modify c fun ch ↦ { ch with credentials := some credentials }
  | .startThread c, .ok () => w.channels.modify c fun ch ↦ { ch with thread := .running channelRun }
  | _, _ => w.channels

/-- What it does to the slot. -/
def ServerAct.slot (w : World) : (a : ServerAct) → Option ℕ
  | .writeSlot c => c
  | _ => w.slot

/-- What it does to the channel of the call. -/
def ServerAct.channel (call : Call) : (a : ServerAct) → a.Resp → Option ℕ
  | .newChannel, c => some c
  | _, _ => call.channel

/-- The answers a channel can get. -/
def ChannelAct.may (w : World) (ch : Channel) : (a : ChannelAct) → a.Resp → Prop
  | .accept, r => ∀ id, r = .ok id → id = w.conns.length
  | .readAllowed, r => r = ch.allowed
  | .readCredentials, r => r = ch.credentials
  | _, _ => True

/-- What an operation of channel `c` does to the connections. -/
def ChannelAct.effect (w : World) (c : ℕ) : (a : ChannelAct) → a.Resp → List Conn
  | .accept, .ok _ => w.conns ++ [.new c]
  | a, r =>
    match a.conn with
    | some id => w.conns.modify id fun conn ↦ conn.next a r
    | none => w.conns

/-- The program has returned or raised. -/
def Ended {A : Type} {R : A → Type} {ε α : Type} : Prog R ε α → Prop
  | .call _ _ => False
  | _ => True

/-- One operation of one thread. -/
inductive World.Step : World → World → Prop
  /-- A login command arrives.  They are handled one after the other. -/
  | login (w : World) (block : Bytes) (h : w.call = none) :
    Step w { w with logins := w.logins + 1,
                    call := some ⟨w.logins, block, none, userAuthenticated block⟩ }
  /-- The server performs an operation. -/
  | server (w : World) (call : Call) (a : ServerAct) (k : a.Resp → ServerM Unit) (r : a.Resp)
      (hcall : w.call = some call) (hrest : call.rest = .call a k) (hr : a.may w r) :
    Step w { w with slot := a.slot w, channels := a.effect w call r,
                    call := some { call with channel := a.channel call r, rest := k r } }
  /-- A login command has been handled. -/
  | handled (w : World) (call : Call) (hcall : w.call = some call) (hrest : Ended call.rest) :
    Step w { w with call := none }
  /-- `CredServer.run` sets `_dbus`. -/
  | dbus (w : World) : Step w { w with hasDbus := true }
  /-- A channel performs an operation. -/
  | channel (w : World) (c : ℕ) (ch : Channel) (a : ChannelAct) (k : a.Resp → ChannelM Unit)
      (r : a.Resp) (hch : w.channels[c]? = some ch) (hthread : ch.thread = .running (.call a k))
      (hr : a.may w ch r) :
    Step w { w with channels := w.channels.modify c fun ch ↦ { ch with thread := .running (k r) },
                    conns := a.effect w c r }
  /-- The thread of a channel ends. -/
  | ended (w : World) (c : ℕ) (ch : Channel) (p : ChannelM Unit) (hch : w.channels[c]? = some ch)
      (hthread : ch.thread = .running p) (hend : Ended p) :
    Step w { w with channels := w.channels.modify c fun ch ↦ { ch with thread := .ended } }

/-! ## What must not happen -/

/-- The blocks sent for a login: the ones handed to `send` on connections its channels accepted. -/
def World.sentFor (w : World) (n : ℕ) : List Bytes :=
  (w.conns.filter fun conn ↦
    (w.channels[conn.acceptedBy]?).any (·.login.number == n)).flatMap Conn.sent

/-- Credentials are handed out with care. -/
structure World.Guarded (w : World) : Prop where
  /-- A block is sent to an allowed user who has shown the token, and it is the block and the token
  of the login the connection was accepted for. -/
  cleared : ∀ conn ∈ w.conns, ∀ block ∈ conn.sent, ∃ ch, w.channels[conn.acceptedBy]? = some ch ∧
    block = ch.login.block ∧ (∃ token, ch.login.token = some token ∧ conn.first = some token) ∧
      ∃ uid ∈ ch.allowed, conn.uid = some uid
  once : ∀ n, (w.sentFor n).length ≤ 1

end GuestAgent
