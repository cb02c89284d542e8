import GuestAgent.Credentials.World

/-!
# Credentials are handed out with care

`guarded_of_reachable` says that `World.Guarded` holds in every state the server, its channels and
whoever connects can reach.

Each thread follows a monitor, its account of what it has done and been answered.  For a channel
that is `guard`; for the server it is `serverGuard`, by which credentials are given to the channel
of the call only, with the block of the call and the token drawn for it, and before that channel is
started. The invariant `World.Inv` says that the shared state bears these accounts out:
`Channel.Tracks` for a channel and the connection it has accepted, `Call.Agrees` for the login that
is being handled, and `Ledger` for what the channels and connections have to do with each other.
There is one lemma for each kind of change an operation can make, and `inv_of_step` puts them
together.
-/

set_option autoImplicit false

namespace GuestAgent

open Effect Effect.Prog Effect.Monitor Transition

/-! ## What the server is careful about -/

/-- What the server knows of the login it is handling: the slot, the channel it has made, the token
it has drawn, and whether it has tried to start the channel. -/
structure Serving where
  slot : Option ℕ
  channel : Option ℕ
  token : Option Bytes
  started : Bool

/-- The account of the server while it handles a login for `block`. -/
def serverGuard (block : Bytes) : Monitor ServerAct.Resp Serving where
  allows m a := match a with
    | .newChannel => m.channel = none
    | .randint _ _ => m.token = none ∧ ∃ c, m.channel = some c
    | .appendAllowed c _ | .startThread c => m.channel = some c ∧ m.started = false
    | .writeCredentials c credentials =>
      m.channel = some c ∧ m.started = false ∧ ∃ token, m.token = some token ∧
        credentials = (token, block)
    | _ => True
  may m a r := match a with
    | .readSlot => r = m.slot
    | _ => True
  next m a r := match a with
    | .writeSlot c => { m with slot := c }
    | .newChannel => { m with channel := some r }
    | .randint _ _ => { m with token := some (strNat r) }
    | .startThread _ => { m with started := true }
    | _ => m

section Server

open ServerM

variable {block : Bytes} {m : Serving} {c : ℕ}

theorem wp_credChannel {Q : Except PyExn ℕ → Serving → Prop} (hslot : m.slot = some c)
    (hQ : Q (.ok c) m) : (serverGuard block).wp credChannel Q m := by
  refine wp_bind.mpr ⟨trivial, fun r hr ↦ ?_⟩
  obtain rfl : r = some c := Eq.trans hr hslot
  exact hQ

theorem wp_setAllowed_root {Q : Except PyExn Unit → Serving → Prop} (hchannel : m.channel = some c)
    (hstarted : m.started = false) (hQ : Q (.ok ()) m) :
    (serverGuard block).wp (setAllowed c [.uid 0]) Q m :=
  ⟨⟨hchannel, hstarted⟩, fun _ _ ↦ ⟨trivial, fun _ _ ↦ hQ⟩⟩

theorem wp_emitSignal {token : Bytes} {Q : Except PyExn Unit → Serving → Prop} (hQ : ∀ r, Q r m) :
    (serverGuard block).wp (emitSignal token) Q m := by
  refine wp_bind.mpr ⟨trivial, fun r _ ↦ ?_⟩
  cases r with
  | false => exact hQ _
  | true => exact wp_bind.mpr ⟨trivial, fun r _ ↦ (wp_ofExcept r).mpr (hQ r)⟩

theorem wp_join {Q : Except PyExn Unit → Serving → Prop} (hQ : ∀ r, Q r m) :
    (serverGuard block).wp (join c) Q m :=
  wp_bind.mpr ⟨trivial, fun r _ ↦ (wp_ofExcept r).mpr (hQ r)⟩

theorem wp_start {token : Bytes} {Q : Except PyExn Unit → Serving → Prop}
    (hchannel : m.channel = some c) (htoken : m.token = some token) (hstarted : m.started = false)
    (hQ : ∀ r, Q r { m with started := true }) :
    (serverGuard block).wp (start c (token, block)) Q m := by
  refine wp_bind.mpr ⟨⟨hchannel, hstarted, token, htoken, rfl⟩, fun _ _ ↦ ?_⟩
  exact wp_bind.mpr ⟨⟨hchannel, hstarted⟩, fun r _ ↦ (wp_ofExcept r).mpr (hQ r)⟩

theorem follows_runChannel {token : Bytes} (hslot : m.slot = some c) (hchannel : m.channel = some c)
    (htoken : m.token = some token) (hstarted : m.started = false) :
    (serverGuard block).Follows (runChannel token block) m := by
  refine wp_bind.mpr ⟨trivial, fun _ _ ↦ wp_bind.mpr (wp_credChannel hslot ?_)⟩
  refine wp_bind.mpr (wp_start hchannel htoken hstarted fun r ↦ ?_)
  rcases r with e | _
  · trivial
  · refine wp_bind.mpr (wp_emitSignal fun r ↦ ?_)
    rcases r with e | _
    · trivial
    · refine wp_bind.mpr (wp_credChannel hslot (wp_bind.mpr (wp_join fun r ↦ ?_)))
      rcases r with e | _
      · trivial
      · exact ⟨trivial, fun _ _ ↦ ⟨trivial, fun _ _ ↦ trivial⟩⟩

/-- **The server follows its guard**, whatever it is answered. -/
theorem follows_userAuthenticated {slot : Option ℕ} :
    (serverGuard block).Follows (userAuthenticated block) ⟨slot, none, none, false⟩ := by
  refine wp_bind.mpr ⟨trivial, fun r _ ↦ ?_⟩
  rcases r with _ | c
  · refine wp_bind.mpr ⟨rfl, fun c _ ↦ wp_bind.mpr ⟨trivial, fun _ _ ↦ ?_⟩⟩
    refine wp_bind.mpr (wp_credChannel rfl (wp_bind.mpr (wp_setAllowed_root rfl rfl ?_)))
    refine wp_bind.mpr ⟨⟨rfl, c, rfl⟩, fun n _ ↦ wp_bind.mpr ⟨trivial, fun _ _ ↦ ?_⟩⟩
    exact follows_runChannel rfl rfl rfl rfl
  · exact ⟨trivial, fun _ _ ↦ trivial⟩

end Server

/-! ## What the accounts say of the shared state -/

/-- The connection channel `c` has accepted, if any, and where it is among the connections. -/
def Account (conns : List Conn) (c : ℕ) (m : Option (ℕ × Conn)) : Prop :=
  ∀ id conn, conns[id]? = some conn ∧ conn.acceptedBy = c ↔ m = some (id, conn)

/-- What was sent on the connection was meant for whoever is at the other end, and was sent once. -/
def Conn.Sent (allowed : List Int) (credentials : Option (Bytes × Bytes)) (conn : Conn) : Prop :=
  conn.sent = [] ∨ ∃ block, conn.sent = [block] ∧ conn.Entitled allowed credentials block

/-- The thread of channel `c` is where its account says. -/
def Channel.Follows (c : ℕ) (ch : Channel) (m : Option (ℕ × Conn)) : Prop :=
  match ch.thread with
  | .created => m = none
  | .running p => (guard c ch.allowed ch.credentials).Follows p m
  | .ended => True

/-- The shared state bears out the account of channel `c`. -/
structure Channel.Tracks (conns : List Conn) (c : ℕ) (ch : Channel) (m : Option (ℕ × Conn)) :
    Prop where
  account : Account conns c m
  follows : ch.Follows c m
  sent : ∀ id conn, m = some (id, conn) → conn.Sent ch.allowed ch.credentials
  /-- Its credentials are those of its login. -/
  credentials : ∀ token block, ch.credentials = some (token, block) →
    ch.login.token = some token ∧ ch.login.block = block

/-- The channels and the connections. -/
structure Ledger (logins : ℕ) (channels : List Channel) (conns : List Conn) : Prop where
  numbers : (channels.map (·.login.number)).Nodup
  below : ∀ ch ∈ channels, ch.login.number < logins
  known : ∀ conn ∈ conns, conn.acceptedBy < channels.length
  tracks : ∀ c ch, channels[c]? = some ch → ∃ m, Channel.Tracks conns c ch m

/-- The channel has the login it was made for, and is not started before the account says so. -/
structure Channel.MadeFor (number : ℕ) (block : Bytes) (m : Serving) (ch : Channel) : Prop where
  login : ch.login = ⟨number, block, m.token⟩
  created : m.started = false → ch.thread = .created

/-- The shared state bears out the account of the server. -/
structure Call.Agrees (slot : Option ℕ) (logins : ℕ) (channels : List Channel) (call : Call)
    (m : Serving) : Prop where
  number : call.number + 1 = logins
  slot : m.slot = slot
  channel : m.channel = call.channel
  follows : (serverGuard call.block).Follows call.rest m
  fresh : call.channel = none → m.token = none ∧ ∀ ch ∈ channels, ch.login.number ≠ call.number
  made : ∀ c, call.channel = some c → ∃ ch, channels[c]? = some ch ∧
    ch.MadeFor call.number call.block m

/-- The invariant. -/
structure World.Inv (w : World) : Prop where
  ledger : Ledger w.logins w.channels w.conns
  call : ∀ call, w.call = some call → ∃ m, Call.Agrees w.slot w.logins w.channels call m

/-! ## Adding to a list, and changing one of its entries -/

section List

variable {α : Type} {l : List α} {x y : α} {i j : ℕ} {f : α → α}

theorem getElem?_concat_iff : (l ++ [x])[i]? = some y ↔ l[i]? = some y ∨ i = l.length ∧ y = x := by
  rw [List.getElem?_append]
  split
  · exact ⟨.inl, fun h ↦ h.resolve_right fun hnew ↦ by omega⟩
  · grind

theorem getElem?_modify_iff : (l.modify i f)[j]? = some y ↔
    i ≠ j ∧ l[j]? = some y ∨ i = j ∧ ∃ x, l[i]? = some x ∧ f x = y := by
  grind

/-- A field the change leaves alone. -/
theorem map_modify {β : Type} {g : α → β} (h : l[i]? = some x) (hf : g (f x) = g x) :
    (l.modify i f).map g = l.map g := by
  refine List.ext_getElem? fun j ↦ ?_
  rw [List.getElem?_map, List.getElem?_map, List.getElem?_modify]
  split
  · rename_i hij
    subst hij
    simp [h, hf]
  · simp

end List

/-! ## Connections -/

section Account

variable {conns : List Conn} {c c' id : ℕ} {conn : Conn} {m : Option (ℕ × Conn)}

theorem account_append_self (h : Account conns c none) :
    Account (conns ++ [.new c]) c (some (conns.length, .new c)) := by
  intro id conn
  have hnone : ¬ (conns[id]? = some conn ∧ conn.acceptedBy = c) := by simp [h id conn]
  rw [getElem?_concat_iff, or_and_right, or_iff_right hnone, Option.some.injEq,
    Prod.mk.injEq, eq_comm (b := id), eq_comm (b := conn)]
  exact and_iff_left_of_imp fun hnew ↦ by rw [hnew.2]; rfl

theorem account_append_other (hc : c' ≠ c) (h : Account conns c' m) :
    Account (conns ++ [.new c]) c' m := by
  intro id conn
  rw [← h, getElem?_concat_iff, or_and_right]
  refine or_iff_left ?_
  rintro ⟨⟨-, rfl⟩, rfl⟩
  exact hc rfl

variable {f : Conn → Conn}

theorem account_modify_self (hf : (f conn).acceptedBy = conn.acceptedBy)
    (h : Account conns c (some (id, conn))) :
    Account (conns.modify id f) c (some (id, f conn)) := by
  obtain ⟨hid, hc⟩ := (h id conn).mpr rfl
  intro id' conn'
  rw [getElem?_modify_iff, Option.some.injEq, Prod.mk.injEq]
  constructor
  · rintro ⟨⟨hne, hid'⟩ | ⟨rfl, x, hx, rfl⟩, hc'⟩
    · cases (h id' conn').mp ⟨hid', hc'⟩
      exact absurd rfl hne
    · rw [Option.some.inj (hid.symm.trans hx)]
      exact ⟨rfl, rfl⟩
  · rintro ⟨rfl, rfl⟩
    exact ⟨.inr ⟨rfl, conn, hid, rfl⟩, hf.trans hc⟩

theorem account_modify_other (hf : (f conn).acceptedBy = conn.acceptedBy)
    (hid : conns[id]? = some conn) (hc : conn.acceptedBy ≠ c') (h : Account conns c' m) :
    Account (conns.modify id f) c' m := by
  intro id' conn'
  rw [getElem?_modify_iff, ← h]
  constructor
  · rintro ⟨⟨-, hid'⟩ | ⟨rfl, x, hx, rfl⟩, hc'⟩
    · exact ⟨hid', hc'⟩
    · obtain rfl := Option.some.inj (hid.symm.trans hx)
      exact absurd (hf.symm.trans hc') hc
  · rintro ⟨hid', hc'⟩
    refine ⟨.inl ⟨?_, hid'⟩, hc'⟩
    rintro rfl
    obtain rfl := Option.some.inj (hid.symm.trans hid')
    exact hc hc'

variable {allowed : List Int} {credentials : Option (Bytes × Bytes)} {a : ChannelAct}

@[simp] theorem Conn.acceptedBy_next (conn : Conn) (a : ChannelAct) (r : a.Resp) :
    (conn.next a r).acceptedBy = conn.acceptedBy := by
  cases a with
  | recv id => cases r <;> rfl
  | _ => rfl

/-- What can happen to the connections and to the account of the channel. -/
theorem effect_cases {w : World} {ch : Channel} {r : a.Resp} (hr : a.may w ch r)
    (ha : (guard c allowed credentials).allows m a) :
    (m = none ∧ a.effect w c r = w.conns ++ [.new c] ∧
      (guard c allowed credentials).next m a r = some (w.conns.length, .new c)) ∨
    (∃ id conn, m = some (id, conn) ∧ a.effect w c r = w.conns.modify id (·.next a r) ∧
      (guard c allowed credentials).next m a r = some (id, conn.next a r)) ∨
    (a.effect w c r = w.conns ∧ (guard c allowed credentials).next m a r = m) := by
  rcases hconn : a.conn with _ | id
  · by_cases haccept : a = .accept
    · subst haccept
      rcases r with e | id
      · exact .inr (.inr ⟨rfl, by cases m <;> rfl⟩)
      · refine .inl ⟨ha.1 rfl, rfl, ?_⟩
        rw [← hr id rfl]
        rfl
    · refine .inr (.inr ⟨?_, guard_next_other hconn haccept r⟩)
      cases a <;> first | rfl | exact absurd rfl haccept | cases hconn
  · obtain ⟨conn, rfl⟩ := ha.2.1 id hconn
    refine .inr (.inl ⟨id, conn, rfl, ?_⟩)
    cases a <;> cases hconn <;> exact ⟨rfl, rfl⟩

theorem account_effect_self {w : World} {ch : Channel} {r : a.Resp} (hr : a.may w ch r)
    (ha : (guard c allowed credentials).allows m a) (h : Account w.conns c m) :
    Account (a.effect w c r) c ((guard c allowed credentials).next m a r) := by
  obtain ⟨rfl, heffect, hnext⟩ | ⟨id, conn, rfl, heffect, hnext⟩ | ⟨heffect, hnext⟩ :=
    effect_cases hr ha
  · rw [heffect, hnext]
    exact account_append_self h
  · rw [heffect, hnext]
    exact account_modify_self (conn.acceptedBy_next a r) h
  · rwa [heffect, hnext]

theorem account_effect_other {w : World} {ch : Channel} {r : a.Resp} (hr : a.may w ch r)
    (ha : (guard c allowed credentials).allows m a) (h : Account w.conns c m) (hc : c' ≠ c)
    {m' : Option (ℕ × Conn)} (h' : Account w.conns c' m') : Account (a.effect w c r) c' m' := by
  obtain ⟨rfl, heffect, -⟩ | ⟨id, conn, rfl, heffect, -⟩ | ⟨heffect, -⟩ := effect_cases hr ha
  · rw [heffect]
    exact account_append_other hc h'
  · obtain ⟨hid, rfl⟩ := (h id conn).mpr rfl
    rw [heffect]
    exact account_modify_other (conn.acceptedBy_next a r) hid hc.symm h'
  · rwa [heffect]

/-- No connection is accepted for a channel that does not exist. -/
theorem known_effect {w : World} {ch : Channel} {r : a.Resp} (hr : a.may w ch r)
    (ha : (guard c allowed credentials).allows m a) (h : Account w.conns c m) {n : ℕ} (hc : c < n)
    (hknown : ∀ conn ∈ w.conns, conn.acceptedBy < n) :
    ∀ conn ∈ a.effect w c r, conn.acceptedBy < n := by
  obtain ⟨rfl, heffect, -⟩ | ⟨id, conn, rfl, heffect, -⟩ | ⟨heffect, -⟩ := effect_cases hr ha
  · rw [heffect]
    intro conn hconn
    rcases List.mem_append.mp hconn with hconn | hconn
    · exact hknown conn hconn
    · obtain rfl := List.mem_singleton.mp hconn
      exact hc
  · have hmap : (w.conns.modify id (·.next a r)).map Conn.acceptedBy =
        w.conns.map Conn.acceptedBy :=
      map_modify ((h id conn).mpr rfl).1 (conn.acceptedBy_next a r)
    rw [heffect, ← List.forall_mem_map (P := fun k ↦ k < n), hmap]
    exact List.forall_mem_map.mpr hknown
  · rwa [heffect]

theorem Conn.uid_next {uid : Int} (h : conn.uid = some uid) (r : a.Resp) :
    (conn.next a r).uid = some uid := by
  cases a with
  | recvmsg id => rw [Conn.next, Conn.report, h, Option.some_or]
  | recv id => cases r <;> exact h
  | _ => exact h

theorem Conn.first_next {data : Bytes} (h : conn.first = some data) (r : a.Resp) :
    (conn.next a r).first = some data := by
  cases a with
  | recv id =>
    rcases r with e | data'
    · exact h
    · rw [Conn.next, Conn.receive, h, Option.some_or]
  | _ => exact h

theorem Conn.Entitled.next {block : Bytes} (h : conn.Entitled allowed credentials block)
    (r : a.Resp) : (conn.next a r).Entitled allowed credentials block := by
  obtain ⟨⟨uid, hmem, huid⟩, token, hcredentials, hfirst⟩ := h
  exact ⟨⟨uid, hmem, uid_next huid r⟩, token, hcredentials, first_next hfirst r⟩

/-- Only `send` hands anything out. -/
theorem Conn.sent_next (hsend : ∀ id block, a ≠ .send id block) (r : a.Resp) :
    (conn.next a r).sent = conn.sent := by
  cases a with
  | send id block => exact absurd rfl (hsend id block)
  | recv id => cases r <;> rfl
  | _ => rfl

/-- An operation that is in order leaves what was sent in order. -/
theorem Conn.Sent.next (hsend : ∀ id block, a = .send id block →
    conn.Cleared allowed credentials block) (h : conn.Sent allowed credentials) (r : a.Resp) :
    (conn.next a r).Sent allowed credentials := by
  by_cases ha : ∃ id block, a = .send id block
  · obtain ⟨id, block, rfl⟩ := ha
    have hclear := hsend id block rfl
    exact .inr ⟨block, congrArg (· ++ [block]) hclear.sent, hclear.toEntitled.next r⟩
  · push Not at ha
    rw [Conn.Sent, Conn.sent_next ha]
    exact h.imp_right fun ⟨block, hsent, hentitled⟩ ↦ ⟨block, hsent, hentitled.next r⟩

theorem sent_effect {w : World} {ch : Channel} {r : a.Resp} (hr : a.may w ch r)
    (ha : (guard c allowed credentials).allows m a)
    (h : ∀ id conn, m = some (id, conn) → conn.Sent allowed credentials) :
    ∀ id conn, (guard c allowed credentials).next m a r = some (id, conn) →
      conn.Sent allowed credentials := by
  intro id conn hnext'
  obtain ⟨-, -, hnext⟩ | ⟨id', conn', rfl, -, hnext⟩ | ⟨-, hnext⟩ := effect_cases hr ha
  · cases hnext.symm.trans hnext'
    exact .inl rfl
  · cases hnext.symm.trans hnext'
    refine Conn.Sent.next (fun id'' block hsend ↦ ?_) (h _ _ rfl) r
    obtain ⟨conn'', hm, hclear⟩ := ha.2.2 id'' block hsend
    cases hm
    exact hclear
  · exact h id conn (hnext.symm.trans hnext')

end Account

/-! ## Channels -/

section Channels

variable {n c : ℕ} {channels : List Channel} {conns conns' : List Conn} {ch : Channel}
variable {f : Channel → Channel}

/-- One channel changes, and perhaps the connections. -/
theorem Ledger.modify (h : Ledger n channels conns) (hch : channels[c]? = some ch)
    (hf : (f ch).login.number = ch.login.number)
    (hknown : ∀ conn ∈ conns', conn.acceptedBy < channels.length)
    (hself : ∃ m, Channel.Tracks conns' c (f ch) m)
    (hother : ∀ c' ch' m, c' ≠ c → Channel.Tracks conns c' ch' m → Channel.Tracks conns' c' ch' m) :
    Ledger n (channels.modify c f) conns' where
  numbers := by
    rw [map_modify hch hf]
    exact h.numbers
  below := by
    rw [← List.forall_mem_map (f := fun ch : Channel ↦ ch.login.number) (P := fun k ↦ k < n),
      map_modify hch hf]
    exact List.forall_mem_map.mpr h.below
  known := by
    rw [List.length_modify]
    exact hknown
  tracks := by
    intro c' ch' hch'
    obtain ⟨hne, hch'⟩ | ⟨rfl, x, hx, rfl⟩ := getElem?_modify_iff.mp hch'
    · obtain ⟨m, hm⟩ := h.tracks c' ch' hch'
      exact ⟨m, hother c' ch' m hne.symm hm⟩
    · obtain rfl := Option.some.inj (hch.symm.trans hx)
      exact hself

/-- One channel changes. -/
theorem Ledger.modify_channel (h : Ledger n channels conns) (hch : channels[c]? = some ch)
    (hf : (f ch).login.number = ch.login.number)
    (hself : ∀ m, Channel.Tracks conns c ch m → Channel.Tracks conns c (f ch) m) :
    Ledger n (channels.modify c f) conns := by
  obtain ⟨m, hm⟩ := h.tracks c ch hch
  exact h.modify hch hf h.known ⟨m, hself m hm⟩ fun _ _ _ _ ↦ id

/-- A channel is made for a new login. -/
theorem Ledger.append (h : Ledger n channels conns) {number : ℕ} {block : Bytes}
    (hnumber : number < n) (hfresh : ∀ ch ∈ channels, ch.login.number ≠ number) :
    Ledger n (channels ++ [⟨⟨number, block, none⟩, [], none, .created⟩]) conns where
  numbers := by
    rw [List.map_append]
    refine List.nodup_append.mpr ⟨h.numbers, List.pairwise_singleton _ _, ?_⟩
    rintro _ hmem _ hnew
    obtain ⟨ch, hch, rfl⟩ := List.mem_map.mp hmem
    obtain rfl := List.mem_singleton.mp hnew
    exact hfresh ch hch
  below := by
    intro ch hch
    rcases List.mem_append.mp hch with hch | hch
    · exact h.below ch hch
    · obtain rfl := List.mem_singleton.mp hch
      exact hnumber
  known := by
    intro conn hconn
    rw [List.length_append]
    exact Nat.lt_add_right _ (h.known conn hconn)
  tracks := by
    intro c ch hch
    obtain hch | ⟨rfl, rfl⟩ := getElem?_concat_iff.mp hch
    · exact h.tracks c ch hch
    · refine ⟨none, fun id conn ↦ iff_of_false ?_ (by simp), rfl, by simp, by simp⟩
      rintro ⟨hid, hacc⟩
      exact absurd (h.known conn (List.mem_of_getElem? hid)) (by omega)

/-- A channel that has not been started can be changed in any way that keeps to its login. -/
theorem Channel.Tracks.of_created {m : Option (ℕ × Conn)} {ch' : Channel}
    (h : Channel.Tracks conns c ch m) (hcreated : ch.thread = .created)
    (hthread : ch'.thread = .created ∨ ch'.thread = .running channelRun)
    (hcredentials : ∀ token block, ch'.credentials = some (token, block) →
      ch'.login.token = some token ∧ ch'.login.block = block) : Channel.Tracks conns c ch' m := by
  obtain rfl : m = none := by
    have hfollows := h.follows
    rwa [Channel.Follows, hcreated] at hfollows
  refine ⟨h.account, ?_, by simp, hcredentials⟩
  rw [Channel.Follows]
  rcases hthread with hthread | hthread
  · rw [hthread]
  · rw [hthread]
    exact follows_channelRun

/-- A login command arrives. -/
theorem Ledger.login (h : Ledger n channels conns) : Ledger (n + 1) channels conns :=
  { h with below := fun ch hch ↦ Nat.lt_succ_of_lt (h.below ch hch) }

variable {m : Option (ℕ × Conn)} {a : ChannelAct} {k : a.Resp → ChannelM Unit} {r : a.Resp}

/-- A channel performs an operation. -/
theorem Ledger.effect {w : World} (h : Ledger n w.channels w.conns) (hch : w.channels[c]? = some ch)
    (hthread : ch.thread = .running (.call a k)) (hr : a.may w ch r) :
    Ledger n (w.channels.modify c fun ch ↦ { ch with thread := .running (k r) })
      (a.effect w c r) := by
  obtain ⟨m, hm⟩ := h.tracks c ch hch
  have hfollows := hm.follows
  rw [Channel.Follows, hthread] at hfollows
  obtain ⟨ha, hk⟩ := Follows.step hfollows
  have hmay : (guard c ch.allowed ch.credentials).may m a r := by
    cases a <;> first | exact hr | trivial
  have hlt : c < w.channels.length := (List.getElem?_eq_some_iff.mp hch).1
  refine h.modify hch rfl (known_effect hr ha hm.account hlt h.known)
    ⟨(guard c ch.allowed ch.credentials).next m a r, ?_⟩ fun c' ch' m' hc hm' ↦ ?_
  · exact ⟨account_effect_self hr ha hm.account, hk r hmay, sent_effect hr ha hm.sent,
      hm.credentials⟩
  · exact { hm' with account := account_effect_other hr ha hm.account hc hm'.account }

end Channels

/-! ## The login that is being handled -/

section Calls

variable {slot slot' : Option ℕ} {n c : ℕ} {channels : List Channel} {call : Call} {m m' : Serving}
variable {ch : Channel} {f : Channel → Channel} {rest : ServerM Unit}

/-- A channel changes, but not its login, and it is not started. -/
theorem Call.Agrees.modify (h : Call.Agrees slot n channels call m) (hch : channels[c]? = some ch)
    (hlogin : (f ch).login = ch.login)
    (hcreated : ch.thread = .created → (f ch).thread = .created) :
    Call.Agrees slot n (channels.modify c f) call m := by
  refine { h with fresh := fun hnone ↦ ⟨(h.fresh hnone).1, ?_⟩, made := fun c' hc' ↦ ?_ }
  · rw [← List.forall_mem_map (f := fun ch : Channel ↦ ch.login.number)
      (P := fun k ↦ k ≠ call.number), map_modify hch (congrArg Login.number hlogin)]
    exact List.forall_mem_map.mpr (h.fresh hnone).2
  · obtain ⟨ch', hch', hmade⟩ := h.made c' hc'
    by_cases hne : c = c'
    · subst hne
      obtain rfl := Option.some.inj (hch.symm.trans hch')
      refine ⟨f ch, getElem?_modify_iff.mpr (.inr ⟨rfl, ch, hch, rfl⟩), ?_⟩
      exact ⟨hlogin.trans hmade.login, fun hstarted ↦ hcreated (hmade.created hstarted)⟩
    · exact ⟨ch', getElem?_modify_iff.mpr (.inl ⟨hne, hch'⟩), hmade⟩

/-- The server changes the channel of the call. -/
theorem Call.Agrees.serve (h : Call.Agrees slot n channels call m) (hc : call.channel = some c)
    (hch : channels[c]? = some ch) (hslot : m'.slot = slot') (hchannel : m'.channel = m.channel)
    (hfollows : (serverGuard call.block).Follows rest m')
    (hmade : ch.MadeFor call.number call.block m → (f ch).MadeFor call.number call.block m') :
    Call.Agrees slot' n (channels.modify c f) { call with rest := rest } m' where
  number := h.number
  slot := hslot
  channel := hchannel.trans h.channel
  follows := hfollows
  fresh := fun hnone ↦ by cases hc.symm.trans hnone
  made := by
    intro c' hc'
    obtain rfl := Option.some.inj (hc.symm.trans hc')
    obtain ⟨ch', hch', hmade'⟩ := h.made c hc
    obtain rfl := Option.some.inj (hch.symm.trans hch')
    exact ⟨f ch, getElem?_modify_iff.mpr (.inr ⟨rfl, ch, hch, rfl⟩), hmade hmade'⟩

/-- The server changes no channel. -/
theorem Call.Agrees.keep (h : Call.Agrees slot n channels call m) (hslot : m'.slot = slot')
    (hchannel : m'.channel = m.channel) (htoken : m'.token = m.token)
    (hstarted : m'.started = false → m.started = false)
    (hfollows : (serverGuard call.block).Follows rest m') :
    Call.Agrees slot' n channels { call with rest := rest } m' where
  number := h.number
  slot := hslot
  channel := hchannel.trans h.channel
  follows := hfollows
  fresh := by
    rw [htoken]
    exact h.fresh
  made := by
    intro c hc
    obtain ⟨ch, hch, hmade⟩ := h.made c hc
    exact ⟨ch, hch, by rw [htoken]; exact hmade.login, fun hm' ↦ hmade.created (hstarted hm')⟩

/-- A login command arrives. -/
theorem Ledger.agrees_login {conns : List Conn} (h : Ledger n channels conns) (slot : Option ℕ)
    (block : Bytes) : Call.Agrees slot (n + 1) channels ⟨n, block, none, userAuthenticated block⟩
      ⟨slot, none, none, false⟩ where
  number := rfl
  slot := rfl
  channel := rfl
  follows := follows_userAuthenticated
  fresh := fun _ ↦ ⟨rfl, fun ch hch ↦ (h.below ch hch).ne⟩
  made := fun c hc ↦ by cases hc

variable {a : ServerAct} {k : a.Resp → ServerM Unit} {r : a.Resp}

/-- The server performs an operation. -/
theorem inv_server {w : World} (hledger : Ledger w.logins w.channels w.conns)
    (hrest : call.rest = .call a k) (hr : a.may w r)
    (h : Call.Agrees w.slot w.logins w.channels call m) :
    Ledger w.logins (a.effect w call r) w.conns ∧
      Call.Agrees (a.slot w) w.logins (a.effect w call r)
        { call with channel := a.channel call r, rest := k r }
        ((serverGuard call.block).next m a r) := by
  have hfollows := h.follows
  rw [hrest] at hfollows
  obtain ⟨ha, hk⟩ := Follows.step hfollows
  have hmay : (serverGuard call.block).may m a r := by
    cases a with
    | readSlot => exact Eq.trans hr h.slot.symm
    | _ => trivial
  have hnext := hk r hmay
  cases a with
  | newChannel =>
    obtain rfl : r = w.channels.length := hr
    obtain ⟨htoken, hfresh⟩ := h.fresh (h.channel.symm.trans ha)
    have hnumber : call.number < w.logins := by
      have := h.number
      omega
    refine ⟨hledger.append hnumber hfresh, ?_⟩
    refine ⟨h.number, h.slot, rfl, hnext, nofun, fun c hc ↦ ?_⟩
    cases hc
    exact ⟨_, List.getElem?_concat_length, by rw [← htoken]; rfl, fun _ ↦ rfl⟩
  | appendAllowed c uid =>
    have hc : call.channel = some c := h.channel.symm.trans ha.1
    obtain ⟨ch, hch, hmade⟩ := h.made c hc
    have hcreated := hmade.created ha.2
    refine ⟨hledger.modify_channel hch rfl fun m' hm' ↦ ?_,
      h.serve hc hch h.slot rfl hnext fun _ ↦ ⟨hmade.login, hmade.created⟩⟩
    exact hm'.of_created hcreated (.inl hcreated) hm'.credentials
  | randint lo hi =>
    obtain ⟨htoken, c, hc⟩ := ha
    replace hc : call.channel = some c := h.channel.symm.trans hc
    obtain ⟨ch, hch, hmade⟩ := h.made c hc
    have heffect : ServerAct.effect w call (.randint lo hi) r =
        w.channels.modify c (Channel.setToken (strNat r)) := by
      rw [ServerAct.effect, hc]
    rw [heffect]
    refine ⟨hledger.modify_channel hch rfl fun m' hm' ↦ ?_,
      h.serve hc hch h.slot rfl hnext fun _ ↦ ⟨?_, hmade.created⟩⟩
    · refine { hm' with credentials := fun token block hcredentials ↦ ?_ }
      -- the channel has been given nothing: its login had no token
      have hlogin := (hm'.credentials token block hcredentials).1
      rw [hmade.login, htoken] at hlogin
      cases hlogin
    · rw [Channel.setToken, hmade.login]
      rfl
  | writeCredentials c credentials =>
    have hc : call.channel = some c := h.channel.symm.trans ha.1
    obtain ⟨ch, hch, hmade⟩ := h.made c hc
    obtain ⟨-, hstarted, token, htoken, rfl⟩ := ha
    have hcreated := hmade.created hstarted
    refine ⟨hledger.modify_channel hch rfl fun m' hm' ↦ ?_,
      h.serve hc hch h.slot rfl hnext fun _ ↦ ⟨hmade.login, hmade.created⟩⟩
    refine hm'.of_created hcreated (.inl hcreated) fun token' block hcredentials ↦ ?_
    cases hcredentials
    rw [hmade.login]
    exact ⟨htoken, rfl⟩
  | startThread c =>
    have hc : call.channel = some c := h.channel.symm.trans ha.1
    obtain ⟨ch, hch, hmade⟩ := h.made c hc
    rcases r with e | _
    · exact ⟨hledger, h.keep h.slot rfl rfl (by simp [serverGuard]) hnext⟩
    · refine ⟨hledger.modify_channel hch rfl fun m' hm' ↦ ?_,
        h.serve hc hch h.slot rfl hnext fun _ ↦ ⟨hmade.login, by simp [serverGuard]⟩⟩
      exact hm'.of_created (hmade.created ha.2) (.inr rfl) hm'.credentials
  | writeSlot c => exact ⟨hledger, h.keep rfl rfl rfl id hnext⟩
  | _ => exact ⟨hledger, h.keep h.slot rfl rfl id hnext⟩

end Calls

/-! ## Every state that can be reached -/

theorem inv_init : World.init.Inv :=
  ⟨⟨List.nodup_nil, by simp [World.init], by simp [World.init], by simp [World.init]⟩, nofun⟩

/-- A channel moves, and the login that is being handled stays where it is. -/
theorem World.Inv.call_modify {w : World} (h : w.Inv) {c : ℕ} {ch : Channel} {f : Channel → Channel}
    (hch : w.channels[c]? = some ch) (hlogin : (f ch).login = ch.login)
    (hcreated : ch.thread = .created → (f ch).thread = .created) :
    ∀ call, w.call = some call →
      ∃ m, Call.Agrees w.slot w.logins (w.channels.modify c f) call m := by
  intro call hcall
  obtain ⟨m, hm⟩ := h.call call hcall
  exact ⟨m, hm.modify hch hlogin hcreated⟩

theorem inv_of_step {w w' : World} (h : w.Inv) (hstep : w.Step w') : w'.Inv := by
  cases hstep with
  | login block hnone =>
    refine ⟨h.ledger.login, fun call hcall ↦ ?_⟩
    cases hcall
    exact ⟨_, h.ledger.agrees_login w.slot block⟩
  | server call a k r hcall hrest hr =>
    obtain ⟨m, hm⟩ := h.call call hcall
    obtain ⟨hledger, hagrees⟩ := inv_server h.ledger hrest hr hm
    refine ⟨hledger, fun call' hcall' ↦ ?_⟩
    cases hcall'
    exact ⟨_, hagrees⟩
  | handled call hcall hend => exact ⟨h.ledger, nofun⟩
  | dbus => exact ⟨h.ledger, h.call⟩
  | channel c ch a k r hch hthread hr =>
    refine ⟨h.ledger.effect hch hthread hr, h.call_modify hch rfl fun hcreated ↦ ?_⟩
    cases hcreated.symm.trans hthread
  | ended c ch p hch hthread hend =>
    refine ⟨h.ledger.modify_channel hch rfl fun m hm ↦ ?_, h.call_modify hch rfl fun hcreated ↦ ?_⟩
    · exact { hm with follows := trivial }
    · cases hcreated.symm.trans hthread

/-- At most one entry of a list has a property that holds at one place only. -/
theorem length_filter_le_one {α : Type} {p : α → Bool} {l : List α}
    (h : ∀ (i j : ℕ) (x y : α), l[i]? = some x → p x → l[j]? = some y → p y → i = j) :
    (l.filter p).length ≤ 1 := by
  induction l with
  | nil => exact Nat.zero_le 1
  | cons a l ih =>
    rw [List.filter_cons]
    split
    · rename_i ha
      have hnone : l.filter p = [] := by
        rw [List.filter_eq_nil_iff]
        intro x hx hpx
        obtain ⟨i, hi⟩ := List.getElem?_of_mem hx
        exact absurd (h 0 (i + 1) a x rfl ha hi hpx) (by omega)
      rw [hnone, List.length_singleton]
    · refine ih fun i j x y hi hx hj hy ↦ ?_
      exact Nat.succ.inj (h (i + 1) (j + 1) x y hi hx hj hy)

theorem length_flatMap_le_one {α β : Type} {f : α → List β} {l : List α} (hl : l.length ≤ 1)
    (h : ∀ x ∈ l, (f x).length ≤ 1) : (l.flatMap f).length ≤ 1 := by
  rcases l with _ | ⟨x, _ | ⟨y, l⟩⟩
  · exact Nat.zero_le 1
  · rw [List.flatMap_singleton]
    exact h x (List.mem_singleton_self x)
  · rw [List.length_cons, List.length_cons] at hl
    omega

/-- The account of the channel that accepted a connection is about that connection. -/
theorem World.Inv.tracks_conn {w : World} (h : w.Inv) {id : ℕ} {conn : Conn}
    (hid : w.conns[id]? = some conn) : ∃ ch, w.channels[conn.acceptedBy]? = some ch ∧
      Channel.Tracks w.conns conn.acceptedBy ch (some (id, conn)) := by
  have hlt : conn.acceptedBy < w.channels.length := h.ledger.known conn (List.mem_of_getElem? hid)
  have hch := List.getElem?_eq_getElem hlt
  obtain ⟨m, hm⟩ := h.ledger.tracks _ _ hch
  obtain rfl : m = some (id, conn) := (hm.account id conn).mp ⟨hid, rfl⟩
  exact ⟨_, hch, hm⟩

/-- There is one channel for a login. -/
theorem Ledger.channel_unique {n : ℕ} {channels : List Channel} {conns : List Conn}
    (h : Ledger n channels conns) {c c' : ℕ} {ch ch' : Channel} (hch : channels[c]? = some ch)
    (hch' : channels[c']? = some ch') (hnumber : ch.login.number = ch'.login.number) : c = c' := by
  have hlt : c < (channels.map (·.login.number)).length := by
    rw [List.length_map]
    exact (List.getElem?_eq_some_iff.mp hch).1
  refine (List.getElem?_inj hlt h.numbers).mp ?_
  rw [List.getElem?_map, List.getElem?_map, hch, hch', Option.map_some, Option.map_some, hnumber]

theorem World.Inv.sent_le_one {w : World} (h : w.Inv) {conn : Conn} (hconn : conn ∈ w.conns) :
    conn.sent.length ≤ 1 := by
  obtain ⟨id, hid⟩ := List.getElem?_of_mem hconn
  obtain ⟨ch, -, hm⟩ := h.tracks_conn hid
  rcases hm.sent id conn rfl with hsent | ⟨block, hsent, -⟩
  · rw [hsent]
    exact Nat.zero_le 1
  · rw [hsent, List.length_singleton]

theorem World.Inv.guarded {w : World} (h : w.Inv) : w.Guarded where
  cleared := by
    intro conn hconn block hblock
    obtain ⟨id, hid⟩ := List.getElem?_of_mem hconn
    obtain ⟨ch, hch, hm⟩ := h.tracks_conn hid
    rcases hm.sent id conn rfl with hsent | ⟨block', hsent, huid, token, hcredentials, hfirst⟩
    · rw [hsent] at hblock
      cases hblock
    · rw [hsent] at hblock
      obtain rfl := List.mem_singleton.mp hblock
      obtain ⟨htoken, hlogin⟩ := hm.credentials token block hcredentials
      exact ⟨ch, hch, hlogin.symm, ⟨token, htoken, hfirst⟩, huid⟩
  once := by
    intro n
    have hone : (w.conns.filter fun conn ↦
        (w.channels[conn.acceptedBy]?).any (·.login.number == n)).length ≤ 1 := by
      refine length_filter_le_one fun i j x y hi hx hj hy ↦ ?_
      obtain ⟨ch, hch, hm⟩ := h.tracks_conn hi
      obtain ⟨ch', hch', hm'⟩ := h.tracks_conn hj
      rw [hch, Option.any_some, beq_iff_eq] at hx
      rw [hch', Option.any_some, beq_iff_eq] at hy
      have hacc := h.ledger.channel_unique hch hch' (hx.trans hy.symm)
      cases (hm.account j y).mp ⟨hj, hacc.symm⟩
      rfl
    exact length_flatMap_le_one hone fun conn hconn ↦ h.sent_le_one (List.mem_filter.mp hconn).1

/-- A run in which a process of the user `0` connects and shows the token. -/
theorem reachable_sent : ∃ w, Relation.ReflTransGen World.Step .init w ∧
    w.sentFor 0 = [ascii "block"] := by
  have h := Relation.ReflTransGen.single (World.Step.login .init (ascii "block") rfl)
  replace h := h.tail (.server _ _ _ _ _ rfl rfl rfl)
  replace h := h.tail (.server _ _ _ _ _ rfl rfl rfl)
  replace h := h.tail (.server _ _ _ _ () rfl rfl trivial)
  replace h := h.tail (.server _ _ _ _ _ rfl rfl rfl)
  replace h := h.tail (.server _ _ _ _ () rfl rfl trivial)
  replace h := h.tail (.server _ _ _ _ () rfl rfl trivial)
  replace h := h.tail (.server _ _ _ _ (123456 : ℕ) rfl rfl ⟨by decide, by decide⟩)
  replace h := h.tail (.server _ _ _ _ () rfl rfl trivial)
  replace h := h.tail (.server _ _ _ _ () rfl rfl trivial)
  replace h := h.tail (.server _ _ _ _ _ rfl rfl rfl)
  replace h := h.tail (.server _ _ _ _ () rfl rfl trivial)
  replace h := h.tail (.server _ _ _ _ (Except.ok ()) rfl rfl fun _ ↦ ⟨_, rfl, rfl⟩)
  -- the thread of the channel, from here on
  replace h := h.tail (.channel _ 0 _ _ _ (Except.ok ()) rfl rfl trivial)
  replace h := h.tail (.channel _ 0 _ _ _ (Except.ok ()) rfl rfl trivial)
  replace h := h.tail (.channel _ 0 _ _ _ (Except.ok ()) rfl rfl trivial)
  replace h := h.tail (.channel _ 0 _ _ _ (Except.ok 0) rfl rfl fun _ h ↦ by cases h; rfl)
  replace h := h.tail (.channel _ 0 _ _ _ (Except.ok ()) rfl rfl trivial)
  replace h := h.tail (.channel _ 0 _ _ _
    (Recvmsg.mk 1 (some ⟨solSocket, scmCredentials, 42, 0⟩)) rfl rfl trivial)
  replace h := h.tail (.channel _ 0 _ _ _ () rfl rfl trivial)
  replace h := h.tail (.channel _ 0 _ _ _ () rfl rfl trivial)
  replace h := h.tail (.channel _ 0 _ _ _ _ rfl rfl rfl)
  replace h := h.tail (.channel _ 0 _ _ _ () rfl rfl trivial)
  replace h := h.tail (.channel _ 0 _ _ _ (Except.ok (strNat 123456)) rfl rfl trivial)
  replace h := h.tail (.channel _ 0 _ _ _ _ rfl rfl rfl)
  replace h := h.tail (.channel _ 0 _ _ _ () rfl rfl trivial)
  replace h := h.tail (.channel _ 0 _ _ _ _ rfl rfl rfl)
  replace h := h.tail (.channel _ 0 _ _ _ (Except.ok ()) rfl rfl trivial)
  exact ⟨_, h, by decide⟩

/-- **A login block goes to an allowed user who shows the token of that login, and once at most**,
whatever the processes that connect do. -/
theorem guarded_of_reachable {w : World} (h : Relation.ReflTransGen World.Step .init w) :
    w.Guarded :=
  (invariant_of_step World.Inv (fun _ _ ↦ inv_of_step) inv_init h).guarded

theorem guarded_of_reachable_sent : ∃ w : World, w.sentFor 0 = [ascii "block"] ∧ w.Guarded := by
  obtain ⟨w, hreach, hsent⟩ := reachable_sent
  exact ⟨w, hsent, guarded_of_reachable hreach⟩

end GuestAgent
