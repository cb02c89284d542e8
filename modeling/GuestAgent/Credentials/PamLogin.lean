import GuestAgent.Credentials.Connection
import GuestAgent.Credentials.PamAuthenticate
import GuestAgent.Python.Numeral

/-!
# What PAM is told

A login through the PAM module comes to `verdict`.  Here is what that means for PAM: `keeps_exec` is
what holds whatever the agent answers, as long as the answer has the user name it declares.  Then
the agent's channel is put at the other end of the socket, and `exec_login` says of a login that
fits the buffer when the module lets the user in, and with what.
-/

set_option autoImplicit false

namespace GuestAgent.PamAuth

open CString Effect Effect.Prog

/-! ## What PAM is told -/

namespace AuthEnv

variable (env : AuthEnv) (items : Items)

/-- PAM has taken both items. -/
def Takes : Prop := env.setUser = .success ∧ env.setAuthtok = .success

/-- The user name is not that of someone else than the preset user. -/
def Welcomes (username : Bytes) : Prop :=
  ∀ preset, env.preset items = some preset → username = preset

/-- What a login leaves of what PAM had. -/
structure Keeps (r : PamCode × Items) : Prop where
  /-- The preset user is still the preset user. -/
  user : ∀ preset, env.preset items = some preset → r.2.user = some preset
  /-- A password is handed over only where the login succeeds. -/
  authtok : r.1 ≠ .success → r.2.authtok = items.authtok
  /-- Every failure leaves one record in the log, and success none. -/
  log : ∃ records, r.2.log = items.log ++ records ∧
    records.length = if r.1 = .success then 0 else 1

end AuthEnv

section Told

variable {env : AuthEnv} {items : Items} {username password : Bytes}

theorem preset_eq {preset : Bytes} (h : env.preset items = some preset) :
    items.user = some preset := by
  rw [AuthEnv.preset] at h
  split at h
  · exact h
  · cases h

theorem keeps_record {code : PamCode} (hcode : code ≠ .success) (record : PamLog) :
    env.Keeps items (code, items.record record) where
  user _ h := preset_eq h
  authtok _ := rfl
  log := ⟨[record], rfl, by rw [if_neg hcode]; rfl⟩

theorem keeps_set (h : env.Welcomes items username) :
    env.Keeps items (env.set items username password) := by
  rw [AuthEnv.set]
  by_cases hu : env.setUser = .success
  · rw [if_pos hu]
    have huser (preset : Bytes) (hpreset : env.preset items = some preset) :
        some username = some preset := congrArg some (h preset hpreset)
    by_cases hp : env.setAuthtok = .success
    · rw [if_pos hp]
      exact ⟨huser, fun hne ↦ absurd rfl hne, [], (List.append_nil _).symm, rfl⟩
    · rw [if_neg hp]
      exact ⟨huser, fun _ ↦ rfl, [_], rfl, by rw [if_neg hp]; rfl⟩
  · rw [if_neg hu]
    exact keeps_record hu _

theorem set_success_iff : (env.set items username password).1 = .success ↔ env.Takes := by
  rw [AuthEnv.set, AuthEnv.Takes]
  by_cases hu : env.setUser = .success
  · by_cases hp : env.setAuthtok = .success <;> simp [hu, hp]
  · simp [hu]

/-- Both items are handed over. -/
theorem set_of_takes (h : env.Takes) : env.set items username password =
    (.success, { items with user := some username, authtok := some password }) := by
  rw [AuthEnv.set, if_pos h.1]
  exact if_pos h.2

/-- Whoever is not welcome is not let in. -/
theorem accept_eq (env : AuthEnv) (items : Items) (username password : Bytes) :
    env.Welcomes items username ∧
      env.accept items username password = env.set items username password ∨
    ¬ env.Welcomes items username ∧ ∃ preset,
      env.accept items username password =
        (.credUnavail, items.record (.otherUser preset username)) := by
  rw [AuthEnv.accept, AuthEnv.Welcomes]
  cases env.preset items with
  | none => exact .inl ⟨fun _ h ↦ (by cases h), rfl⟩
  | some preset =>
    by_cases heq : username = preset
    · exact .inl ⟨fun _ h ↦ heq.trans (Option.some.inj h), if_pos heq⟩
    · exact .inr ⟨fun h ↦ heq (h preset rfl), preset, if_neg heq⟩

theorem keeps_accept : env.Keeps items (env.accept items username password) := by
  rcases accept_eq env items username password with ⟨hwelcome, h⟩ | ⟨-, preset, h⟩ <;> rw [h]
  · exact keeps_set hwelcome
  · exact keeps_record (by decide) _

theorem accept_success_iff : (env.accept items username password).1 = .success ↔
    env.Welcomes items username ∧ env.Takes := by
  rcases accept_eq env items username password with ⟨hwelcome, h⟩ | ⟨hwelcome, preset, h⟩ <;> rw [h]
  · rw [set_success_iff, and_iff_right hwelcome]
  · simp [hwelcome]

theorem keeps_verdict (env : AuthEnv) (items : Items) : env.Keeps items (env.verdict items) := by
  rw [AuthEnv.verdict]
  split
  · cases env.reply with
    | none => exact keeps_record (by decide) _
    | some token =>
      dsimp only
      rcases env.acquired token with _ | ⟨username, password⟩
      · exact keeps_record (by decide) _
      · exact keeps_accept
  · exact keeps_record (by decide) _

/-- **What a login leaves of what PAM had**, whatever the agent answers and whatever fails, as long
as the module stays in its buffer. -/
theorem keeps_exec {env : AuthEnv} (h : env.Fits) (items : Items) :
    ∃ code t, exec env items = (.ok code, t) ∧ t.heap.faults = [] ∧
      env.Keeps items (code, t.rest) := by
  obtain ⟨t, hexec, hrest, -, hfaults⟩ := exists_exec env items
  refine ⟨(env.verdict items).1, t, hexec, hfaults h, ?_⟩
  rw [hrest]
  exact keeps_verdict env items

/-- Ann's answer to a login of `bob`. -/
theorem keeps_exec_annAnswered : ∃ code t,
    exec annAnswered ⟨some [0x62, 0x6F, 0x62], none, []⟩ = (.ok code, t) ∧ t.heap.faults = [] ∧
      annAnswered.Keeps ⟨some [0x62, 0x6F, 0x62], none, []⟩ (code, t.rest) :=
  keeps_exec fits_annAnswered _

end Told

/-! ## From the agent to PAM -/

/-- Every call of `acquire_user_credentials` succeeds. -/
structure Works (env : PamEnv) : Prop where
  socket : env.socket = true
  connect : env.connect = true
  setNonBlocking : env.setNonBlocking = true
  send : env.send = true
  select : env.select = true
  recv : env.recv = true
  dupUsername : env.dupUsername = true
  dupPassword : env.dupPassword = true

/-- What the agent's channel meets on a connection: the process at the other end and what it has
sent. -/
structure Peer where
  pid : Int
  uid : Int
  ticket : Bytes

/-- The control message that says who that is. -/
def Peer.control (peer : Peer) : ControlMessage :=
  ⟨solSocket, scmCredentials, peer.pid, peer.uid⟩

/-- The channel serves one connection.  The state is what it has sent. -/
def agentEnd (peer : Peer) (allowed : List Int) (credentials : Bytes × Bytes) :
    (a : ChannelAct) → Bytes → a.Resp × Bytes
  | .accept, sent => (.ok 0, sent)
  | .recvmsg _, sent => (⟨peer.ticket.length, some peer.control⟩, sent)
  | .recv _, sent => (.ok (peer.ticket.take 1024), sent)
  | .send _ block, sent => (.ok (), sent ++ block)
  | .readAllowed, sent => (allowed, sent)
  | .readCredentials, sent => (some credentials, sent)
  | .log _, sent => ((), sent)
  | .socket, sent | .bind, sent | .listen, sent | .passCredentials _, sent
  | .closeConn _, sent | .closeChannel, sent => (.ok (), sent)

/-- What the agent answers on a connection, while it offers `credentials` to `allowed`. -/
def agentAnswer (peer : Peer) (allowed : List Int) (credentials : Bytes × Bytes) : Bytes :=
  (acceptOne.run (agentEnd peer allowed credentials) []).2

section Agent

variable (peer : Peer) (allowed : List Int) {token : Bytes} (block : Bytes)

/-- Nothing longer than the token passes for it. -/
theorem take_eq_iff (hlen : token.length < 1024) (ticket : Bytes) :
    ticket.take 1024 = token ↔ ticket = token := by
  constructor
  · intro h
    have hshort : ticket.length ≤ 1024 := by
      by_contra hlong
      have hcut := congrArg List.length h
      rw [List.length_take] at hcut
      omega
    rwa [List.take_of_length_le hshort] at h
  · rintro rfl
    exact List.take_of_length_le hlen.le

/-- Who has sent nothing is not known. -/
theorem run_readCred : (readCred 0).run (agentEnd peer allowed (token, block)) [] =
    (.ok (if 0 < peer.ticket.length then some peer.control else none), []) := by
  have hcred : Recvmsg.credentials ⟨peer.ticket.length, some peer.control⟩ =
      if 0 < peer.ticket.length then some peer.control else none := by
    rw [Recvmsg.credentials]
    simp only [gt_iff_lt, Int.natCast_pos]
    rfl
  have hpass : (ChannelM.passCredentials 0).run (agentEnd peer allowed (token, block)) [] =
      (.ok (), []) := rfl
  have hrecv : (ChannelM.recvmsg 0).run (agentEnd peer allowed (token, block)) [] =
      (.ok ⟨peer.ticket.length, some peer.control⟩, []) := rfl
  have hlog (r : ChannelLog) : (ChannelM.log r).run (agentEnd peer allowed (token, block)) [] =
      (.ok (), []) := rfl
  rw [readCred.eq_def, run_bind_ok hpass, run_bind_ok hrecv, run_bind_ok (hlog _)]
  dsimp only
  rw [hcred]
  by_cases hpos : (peer.ticket.length : Int) > 0
  · rw [if_pos hpos, run_bind_ok (hlog _), run_pure]
  · rw [if_neg hpos, run_pure]

/-- A connection that has sent nothing gets nothing. -/
theorem run_serve (hne : token ≠ []) (hlen : token.length < 1024) :
    ((serve 0).run (agentEnd peer allowed (token, block)) []).2 =
      if peer.ticket = token then block else [] := by
  have hrecv : (ChannelM.recv 0).run (agentEnd peer allowed (token, block)) [] =
      (.ok (peer.ticket.take 1024), []) := rfl
  rw [serve.eq_def, run_bind_ok hrecv]
  by_cases hnil : peer.ticket.take 1024 = []
  · rw [if_pos hnil, if_neg fun h ↦ hne ((take_eq_iff hlen _).mpr h ▸ hnil)]
    rfl
  · have hcred : ChannelM.credentials.run (agentEnd peer allowed (token, block)) [] =
        (.ok (token, block), []) := rfl
    rw [if_neg hnil, run_bind_ok hcred]
    by_cases htoken : peer.ticket.take 1024 = token
    · rw [if_pos htoken, if_pos ((take_eq_iff hlen _).mp htoken)]
      rfl
    · rw [if_neg htoken, if_neg fun h ↦ htoken ((take_eq_iff hlen _).mpr h)]
      rfl

/-- **The block is sent to an allowed user who has sent the token**, and nothing to anyone else. -/
theorem agentAnswer_eq (hne : token ≠ []) (hlen : token.length < 1024) :
    agentAnswer peer allowed (token, block) =
      if peer.uid ∈ allowed ∧ peer.ticket = token then block else [] := by
  have haccept : ChannelM.accept.run (agentEnd peer allowed (token, block)) [] = (.ok 0, []) := rfl
  rw [agentAnswer, acceptOne.eq_def, run_bind_ok haccept,
    run_bind_ok (run_readCred peer allowed block)]
  by_cases hticket : peer.ticket = []
  · have hempty : ¬ 0 < peer.ticket.length := by simp [hticket]
    have hother : ¬ (peer.uid ∈ allowed ∧ peer.ticket = token) :=
      fun h ↦ hne (h.2.symm.trans hticket)
    rw [if_neg hempty, if_neg hother]
    rfl
  · rw [if_pos (List.length_pos_iff.mpr hticket)]
    have hallowed : ChannelM.readAllowed.run (agentEnd peer allowed (token, block)) [] =
        (.ok allowed, []) := rfl
    dsimp only [Peer.control]
    rw [run_bind_ok hallowed]
    by_cases hmem : peer.uid ∈ allowed
    · have hlog : (ChannelM.log (.incoming peer.uid peer.pid)).run
          (agentEnd peer allowed (token, block)) [] = (.ok (), []) := rfl
      rw [if_neg (not_not.mpr hmem), run_bind_ok hlog, run_serve peer allowed block hne hlen]
      simp only [hmem, true_and]
    · rw [if_pos hmem, if_neg fun h ↦ hmem h.1]
      rfl

end Agent

section Login

variable {getpwnam : Bytes → Bool}

theorem works_of_acquire {env : PamEnv} {block : Bytes} {r : Bytes × Bytes}
    (h : GuestAgent.acquireUserCredentials getpwnam env block = some r) :
    Works env ∧ sizeofInt ≤ block.length := by
  simp only [GuestAgent.acquireUserCredentials, doAcquireUserCredentials,
    GuestAgent.parseCredentialsBuffer, Bool.not_eq_true'] at h
  split at h
  · cases h
  rename_i hsocket
  split at h
  · cases h
  rename_i received hrecv
  split at h
  · cases h
  rename_i hlen
  split at h
  · cases h
  rename_i hu
  split at h
  · cases h
  rename_i hp
  simp only [Bool.not_eq_false] at hsocket hu hp
  simp only [Option.ite_none_left_eq_some, Bool.not_eq_false, Option.some.injEq] at hrecv
  obtain ⟨hconnect, hblocking, hsend, hselect, hrecv, rfl⟩ := hrecv
  refine ⟨⟨hsocket, hconnect, hblocking, hsend, hselect, hrecv, hu, hp⟩, ?_⟩
  rw [List.length_take] at hlen
  omega

theorem isSome_acquire {env : PamEnv} {block : Bytes} (h : Works env)
    (hlen : sizeofInt ≤ block.length) :
    (GuestAgent.acquireUserCredentials getpwnam env block).isSome := by
  have hsize : sizeofInt ≤ credsSize := by decide
  simp [GuestAgent.acquireUserCredentials, doAcquireUserCredentials,
    GuestAgent.parseCredentialsBuffer, h.socket, h.connect, h.setNonBlocking, h.send, h.select,
    h.recv, h.dupUsername, h.dupPassword, hlen, hsize]

variable (env : AuthEnv) (items : Items)

/-- When the module lets a user in. -/
theorem verdict_success_iff : (env.verdict items).1 = .success ↔
    env.prompt = .success ∧ ∃ token username password, env.reply = some token ∧
      env.acquired token = some (username, password) ∧ env.Welcomes items username ∧ env.Takes := by
  rw [AuthEnv.verdict]
  by_cases hprompt : env.prompt = .success
  · rw [if_pos hprompt, and_iff_right hprompt]
    cases hreply : env.reply with
    | none => simp
    | some token =>
      dsimp only
      cases hacquired : env.acquired token with
      | none => simp [hacquired]
      | some credentials =>
        obtain ⟨username, password⟩ := credentials
        dsimp only
        rw [accept_success_iff]
        simp [hacquired]
  · rw [if_neg hprompt]
    simp [hprompt]

/-- Where the module lets a user in, PAM has the user name and the password. -/
theorem verdict_of_acquired {token : CStr} {username password : Bytes}
    (hprompt : env.prompt = .success) (hreply : env.reply = some token)
    (hacquired : env.acquired token = some (username, password))
    (hwelcome : env.Welcomes items username) (htakes : env.Takes) :
    env.verdict items =
      (.success, { items with user := some username, authtok := some password }) := by
  have haccept : env.accept items username password = env.set items username password := by
    rcases accept_eq env items username password with ⟨-, h⟩ | ⟨h, -⟩
    · exact h
    · exact absurd hwelcome h
  rw [AuthEnv.verdict, if_pos hprompt, hreply]
  dsimp only
  rw [hacquired]
  dsimp only
  rw [haccept, set_of_takes htakes]

/-- The credentials of the agent's block, if it was the agent who answered. -/
theorem acquired_iff (c : Credentials) (peer : Peer) {token block : Bytes} {allowed : List Int}
    (hblock : loginCredentials c.args = .ok block)
    (hfits : (encodeUtf8 c.username).length + (encodeUtf8 c.password).length ≤ 252)
    (hne : token ≠ []) (hlen : token.length < 1024) (reply : CStr)
    (hanswer : env.answer reply.bytes =
      agentAnswer { peer with ticket := reply.bytes } allowed (token, block))
    (username password : Bytes) :
    env.acquired reply = some (username, password) ↔
      peer.uid ∈ allowed ∧ reply.bytes = token ∧ Works env.toPamEnv ∧
        username = c.account env.getpwnam ∧ password = encodeUtf8 c.password := by
  have hfaithful {u p : Bytes} (h : GuestAgent.acquireUserCredentials env.getpwnam env.toPamEnv
      block = some (u, p)) : u = c.account env.getpwnam ∧ p = encodeUtf8 c.password :=
    faithful_of_fits c env.getpwnam hfits block hblock env.toPamEnv u p h
  rw [AuthEnv.acquired, hanswer, agentAnswer_eq _ _ _ hne hlen]
  by_cases hsent : peer.uid ∈ allowed ∧ reply.bytes = token
  · rw [if_pos hsent]
    constructor
    · intro h
      exact ⟨hsent.1, hsent.2, (works_of_acquire h).1, hfaithful h⟩
    · rintro ⟨-, -, hworks, rfl, rfl⟩
      have hfour : sizeofInt ≤ block.length := by
        rw [loginCredentials_args, packCredentials_eq (by omega)] at hblock
        cases hblock
        rw [blockOf, List.length_append, length_packBe32, sizeofInt]
        omega
      obtain ⟨⟨u, p⟩, h⟩ := Option.isSome_iff_exists.mp (isSome_acquire hworks hfour)
      obtain ⟨rfl, rfl⟩ := hfaithful h
      exact h
  · rw [if_neg hsent]
    refine iff_of_false (fun h ↦ ?_) fun h ↦ hsent ⟨h.1, h.2.1⟩
    -- there is not even a length in an empty block
    exact absurd (works_of_acquire h).2 (by decide)

/-- What was received is the start of what was sent. -/
theorem received_eq {env : PamEnv} {block received : Bytes}
    (h : doAcquireUserCredentials env block = some received) : received = block.take credsSize := by
  simp only [doAcquireUserCredentials, Option.ite_none_left_eq_some, Option.some.injEq] at h
  exact h.2.2.2.2.2.symm

/-- The answer of the agent has the whole user name, also where the end of it is cut off. -/
theorem fits_of_agent (c : Credentials) (peer : Peer) {token block : Bytes} {allowed : List Int}
    (hblock : loginCredentials c.args = .ok block)
    (hfits : (encodeUtf8 c.username).length + (encodeUtf8 c.password).length ≤ 252)
    (hne : token ≠ []) (hlen : token.length < 1024)
    (hanswer : ∀ ticket,
      env.answer ticket = agentAnswer { peer with ticket } allowed (token, block)) :
    env.Fits := by
  intro reply _ received hreceived
  have htake := received_eq hreceived
  rw [hanswer, agentAnswer_eq _ _ _ hne hlen] at htake
  split at htake
  · rw [loginCredentials_args, packCredentials_eq (by omega)] at hblock
    obtain rfl := Except.ok.inj hblock
    rw [take_blockOf] at htake
    have hdeclared : declared received = (encodeUtf8 c.username).length := by
      rw [htake, declared, List.take_left' (length_packBe32 _), unpackBe32_packBe32 (by omega)]
    have hlength : (encodeUtf8 c.username).length + sizeofInt ≤ received.length := by
      simp only [htake, List.length_append, List.length_take, length_packBe32, sizeofInt,
        List.length_singleton]
      omega
    refine .inr ?_
    rwa [hdeclared, Nat.add_comm]
  · rw [htake]
    exact .inl (by decide)

/-- The module lets in whoever has the token of the login `c`. -/
structure AuthEnv.Admits (uid : Int) (n : ℕ) (c : Credentials) : Prop where
  /-- The agent talks to `root` alone. -/
  root : uid = 0
  prompt : env.prompt = .success
  reply : env.reply.map CStr.bytes = some (strNat n)
  works : Works env.toPamEnv
  welcomes : env.Welcomes items (c.account env.getpwnam)
  takes : env.Takes

theorem length_strNat_lt {n : ℕ} (h : n ≤ 999999) : (strNat n).length < 1024 := by
  have hlen := (Nat.length_toDigits_le_iff (b := 10) (n := n) (k := 6) (by decide) (by decide)).mpr
    (by omega)
  rw [strNat_eq_map, List.length_map]
  omega

/-- **A login from the agent to PAM.**  The module stays in its objects, and succeeds exactly where
the token is that of the login and nothing fails, and then PAM has the account and the password of
the login. -/
theorem exec_login (c : Credentials) {n : ℕ} {block : Bytes} (pid uid : Int) (hn : n ≤ 999999)
    (hblock : loginCredentials c.args = .ok block)
    (hfits : (encodeUtf8 c.username).length + (encodeUtf8 c.password).length ≤ 252)
    (hanswer : ∀ ticket,
      env.answer ticket = agentAnswer ⟨pid, uid, ticket⟩ [0] (strNat n, block)) :
    ((exec env items).1 = .ok .success ↔ env.Admits items uid n c) ∧
      ((exec env items).1 = .ok .success → (exec env items).2.rest =
        { items with
          user := some (c.account env.getpwnam), authtok := some (encodeUtf8 c.password) }) ∧
      (exec env items).2.heap.faults = [] := by
  obtain ⟨t, hexec, hrest, -, hfaults⟩ := exists_exec env items
  have hnone : (exec env items).2.heap.faults = [] := by
    rw [hexec]
    exact hfaults (fits_of_agent env c ⟨pid, uid, []⟩ hblock hfits (strNat_ne_nil n)
      (length_strNat_lt hn) hanswer)
  have hacquired (reply : CStr) := acquired_iff env c ⟨pid, uid, []⟩ hblock hfits
    (strNat_ne_nil n) (length_strNat_lt hn) reply (hanswer reply.bytes)
  have hsuccess : (exec env items).1 = .ok .success ↔ (env.verdict items).1 = .success := by
    rw [hexec]
    exact ⟨Except.ok.inj, congrArg Except.ok⟩
  rw [hsuccess, verdict_success_iff]
  refine ⟨⟨?_, ?_⟩, ?_, hnone⟩
  · rintro ⟨hprompt, reply, username, password, hreply, hcreds, hwelcome, htakes⟩
    obtain ⟨hroot, htoken, hworks, rfl, -⟩ := (hacquired reply username password).mp hcreds
    exact ⟨List.mem_singleton.mp hroot, hprompt, by rw [hreply, ← htoken]; rfl, hworks, hwelcome,
      htakes⟩
  · intro h
    obtain ⟨reply, hreply, htoken⟩ := Option.map_eq_some_iff.mp h.reply
    exact ⟨h.prompt, reply, _, _, hreply, (hacquired reply _ _).mpr
      ⟨List.mem_singleton.mpr h.root, htoken, h.works, rfl, rfl⟩, h.welcomes, h.takes⟩
  · rintro ⟨hprompt, reply, username, password, hreply, hcreds, hwelcome, htakes⟩
    obtain ⟨-, -, -, rfl, rfl⟩ := (hacquired reply username password).mp hcreds
    rw [hexec]
    dsimp only
    rw [hrest, verdict_of_acquired env items hprompt hreply hcreds hwelcome htakes]

end Login

/-- A login of ann's on a machine where everything works. -/
def annLogin : AuthEnv where
  toPamEnv := .calm fun _ ↦ 0
  prompt := .success
  reply := some ⟨strNat 123456, by decide +kernel, by decide +kernel⟩
  answer ticket :=
    agentAnswer ⟨1, 0, ticket⟩ [0] (strNat 123456, blockOf (ascii "ann") (ascii "pw"))
  getpwnam _ := false
  getUser := .success
  setUser := .success
  setAuthtok := .success
  garbage _ _ := 0

/-- Ann is let in on her own screen. -/
theorem exec_login_annLogin :
    (exec annLogin ⟨some (ascii "ann"), none, []⟩).1 = .ok .success ∧
      (exec annLogin ⟨some (ascii "ann"), none, []⟩).2.rest =
        ⟨some (ascii "ann"), some (ascii "pw"), []⟩ := by
  obtain ⟨hiff, hitems, -⟩ := exec_login annLogin ⟨some (ascii "ann"), none, []⟩
    ⟨u "ann", u "pw", by decide, by decide⟩ (n := 123456) 1 0 (by decide) (by decide) (by decide)
    fun _ ↦ rfl
  have h := hiff.mpr ⟨rfl, rfl, rfl, ⟨rfl, rfl, rfl, rfl, rfl, rfl, rfl, rfl⟩,
    fun _ h ↦ Option.some.inj h, rfl, rfl⟩
  exact ⟨h, hitems h⟩

end GuestAgent.PamAuth
