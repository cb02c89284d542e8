import GuestAgent.Library.Threads

/-!
# The credential provider and its channel

The credential provider has one channel, and the channel two members: the handle of its pipe and
that of the thread that waits on the pipe.  `SetUsageScenario` creates both, the thread closes the
pipe when it has been served, and the provider closes what is left when it is destroyed.  Provider
and thread are not kept apart: either reads and assigns the members when it gets to them, and a
second `SetUsageScenario` replaces them.

An operation is one call with the member it is about.  `CreateThread` is on its own, for the thread
may run before its handle is assigned, and a handle is closed and forgotten in one operation:
between the two a member is a closed handle whatever is done.  No handle is given out twice, and the
members of a channel that has been deleted are left as they were.

`flow` says in which order the operations of each function come.
-/

set_option autoImplicit false

namespace GuestAgent.OVirtProvider

open Effect Effect.Prog

/-! ## The operations -/

/-- A `HANDLE`: one of the two values that are none, or a pipe or a thread and the number of the
pipe it was created with. -/
inductive Handle where
  /-- `NULL`. -/
  | null
  /-- `INVALID_HANDLE_VALUE`. -/
  | invalid
  | pipe (g : ℕ)
  | thread (g : ℕ)
  deriving DecidableEq, Repr

/-- `_hCredsPipe` and `_hCredsThread`. -/
inductive Member where
  | pipe | thread
  deriving DecidableEq, Repr

/-- What `SetUsageScenario` returns. -/
inductive HResult where
  | invalidArg | outOfMemory | notImpl
  /-- The `bool` of `CreateChannel`, as it is. -/
  | ofBool (b : Bool)
  deriving DecidableEq, Repr

/-- What the provider and the threads of its channel do. -/
inductive HandleOp where
  /-- `_pOVirtCredentials != NULL`. -/
  | hasCredentials
  /-- `_pCredentialsChannel != NULL`. -/
  | hasChannel
  | newCredentials
  | newChannel
  | releaseCredentials
  | deleteChannel
  | deleteThis
  | setListener (listening : Bool)
  | answer (hr : HResult)
  /-- A member is read, to be compared. -/
  | load (m : Member)
  | assignThread (h : Handle)
  /-- The answer is assigned to `_hCredsPipe`. -/
  | createNamedPipe
  | createThread
  | connectNamedPipe
  | readFile
  | writeFile
  | disconnectNamedPipe
  | terminateThread
  /-- `CloseHandle`, and `INVALID_HANDLE_VALUE` is assigned. -/
  | closeHandle (m : Member)
  deriving DecidableEq, Repr

@[reducible] def HandleOp.Resp : HandleOp → Type
  | hasCredentials | hasChannel | newCredentials | newChannel | connectNamedPipe => Bool
  | load _ | createThread => Handle
  | _ => Unit

abbrev HandleM := Prog HandleOp.Resp Empty

/-! ## The functions -/

section Functions

open HandleOp

/-- `SafeCloseHandle`. -/
def safeCloseHandle (m : Member) : HandleM Unit := do
  let hObject ← perform (load m)
  if hObject ≠ .invalid then
    perform (closeHandle m)

/-- `CreateChannel`. -/
def createChannel : HandleM Bool := do
  perform createNamedPipe
  let hCredsPipe ← perform (load .pipe)
  if hCredsPipe ≠ .invalid then
    let h ← perform createThread
    perform (assignThread h)
    let hCredsThread ← perform (load .thread)
    if hCredsThread ≠ .null then
      perform (setListener true)
  let hCredsThread ← perform (load .thread)
  return hCredsThread ≠ .invalid

/-- `DestroyChannel`. -/
def destroyChannel : HandleM Unit := do
  let hCredsThread ← perform (load .thread)
  if hCredsThread ≠ .invalid then
    perform terminateThread
    safeCloseHandle .thread
  let hCredsPipe ← perform (load .pipe)
  if hCredsPipe ≠ .null then
    perform disconnectNamedPipe
    safeCloseHandle .pipe
  perform (setListener false)

/-- `CredentialsChannelWait`.  What becomes of the message is no matter of handles. -/
def credentialsChannelWait : HandleM Unit := do
  let bConnected ← perform connectNamedPipe
  if bConnected then
    perform readFile
  perform writeFile
  perform disconnectNamedPipe
  safeCloseHandle .pipe
  perform (assignThread .null)

/-- The credentials and the channel of a provider, if it has neither. -/
def createMembers : HandleM HResult := do
  if ← perform hasCredentials then
    return .invalidArg
  if ← perform hasChannel then
    return .invalidArg
  if ← perform newCredentials then
    if ← perform newChannel then
      return .invalidArg
    perform releaseCredentials
  return .outOfMemory

inductive UsageScenario where
  | logon | unlockWorkstation | changePassword | credUI | other
  deriving DecidableEq, Repr

/-- `SetUsageScenario`. -/
def setUsageScenario : UsageScenario → HandleM Unit
  | .logon | .unlockWorkstation => do
    let hr ← createMembers
    if ← perform hasChannel then
      let created ← createChannel
      perform (answer (.ofBool created))
    else
      perform (answer hr)
  | .changePassword | .credUI => perform (answer .notImpl)
  | .other => perform (answer .invalidArg)

/-- `~OVirtProvider`. -/
def destroy : HandleM Unit := do
  if ← perform hasChannel then
    destroyChannel
    perform deleteChannel
  if ← perform hasCredentials then
    perform releaseCredentials
  perform deleteThis

end Functions

/-! ## The system -/

/-- The provider, and the thread created with pipe `g`. -/
inductive Party where
  | provider
  | channelThread (g : ℕ)
  deriving DecidableEq, Repr

/-- A handle is the party's own.  A thread has the pipe it was created with, and every handle there
is is the provider's. -/
def Party.Owns : Party → Handle → Prop
  | _, .null | _, .invalid => False
  | provider, _ => True
  | channelThread g, .pipe g' | channelThread g, .thread g' => g = g'

/-- A call a handle is passed to. -/
structure Use where
  user : Party
  call : HandleOp
  handle : Handle
  wasOpen : Bool
  deriving DecidableEq, Repr

/-- Whether there is a channel object. -/
inductive ChannelObject where
  | absent | present | deleted
  deriving DecidableEq, Repr

/-- The members of the channel and the handles of the process. -/
structure Handles where
  channel : ChannelObject
  pipe : Handle
  thread : Handle
  /-- The pipes created so far. -/
  generation : ℕ
  created : List Handle
  /-- What `CloseHandle` was called with. -/
  closed : List Handle
  /-- The threads that have been created and not been terminated. -/
  running : List ℕ
  deriving DecidableEq, Repr

namespace Handles

/-- The handle has been created and not been closed. -/
def isOpen (s : Handles) (h : Handle) : Bool := h ∈ s.created ∧ h ∉ s.closed

def member (s : Handles) : Member → Handle
  | .pipe => s.pipe
  | .thread => s.thread

def assign (s : Handles) (h : Handle) : Member → Handles
  | .pipe => { s with pipe := h }
  | .thread => { s with thread := h }

end Handles

/-- The state provider and threads share. -/
structure Provider extends Handles where
  credentials : Bool
  listening : Bool
  /-- The provider has been deleted. -/
  released : Bool
  /-- What the last `SetUsageScenario` returned. -/
  hr : Option HResult
  /-- The calls that handles were passed to. -/
  uses : List Use
  deriving DecidableEq, Repr

namespace Provider

/-- Handle `h` is passed to a call. -/
def use (s : Provider) (user : Party) (call : HandleOp) (h : Handle) : Provider :=
  { s with uses := ⟨user, call, h, s.isOpen h⟩ :: s.uses }

end Provider

open HandleOp in
/-- What an operation does, and its answer, if it is the operation of party `e.1` and is to succeed
as `e.2` says.  A call does not succeed on a handle that is not open. -/
def handle (e : Party × Bool) : (a : HandleOp) → Provider → a.Resp × Provider
  | hasCredentials, s => (s.credentials, s)
  | hasChannel, s => (s.channel = .present, s)
  | newCredentials, s => (e.2, { s with credentials := e.2 })
  | newChannel, s =>
    (e.2, if e.2 then { s with channel := .present, pipe := .invalid, thread := .invalid } else s)
  | releaseCredentials, s => ((), { s with credentials := false })
  | deleteChannel, s => ((), { s with channel := .deleted })
  | deleteThis, s => ((), { s with released := true })
  | setListener listening, s => ((), { s with listening })
  | answer hr, s => ((), { s with hr })
  | load m, s => (s.member m, s)
  | assignThread h, s => ((), { s with thread := h })
  | createNamedPipe, s =>
    if e.2 then
      let g := s.generation + 1
      ((), { s with pipe := .pipe g, generation := g, created := .pipe g :: s.created })
    else ((), { s with pipe := .invalid })
  | createThread, s =>
    if e.2 then
      let g := s.generation
      (.thread g, { s with created := .thread g :: s.created, running := g :: s.running })
    else (.null, s)
  | connectNamedPipe, s => (e.2 && s.isOpen s.pipe, s.use e.1 connectNamedPipe s.pipe)
  | readFile, s => ((), s.use e.1 readFile s.pipe)
  | writeFile, s => ((), s.use e.1 writeFile s.pipe)
  | disconnectNamedPipe, s => ((), s.use e.1 disconnectNamedPipe s.pipe)
  | terminateThread, s =>
    let running := match s.thread with
      | .thread g => if s.isOpen s.thread then s.running.erase g else s.running
      | _ => s.running
    ((), { s.use e.1 terminateThread s.thread with running })
  | closeHandle m, s =>
    let h := s.member m
    let t := s.use e.1 (closeHandle m) h
    ((), { t with toHandles := { t.toHandles with closed := h :: t.closed }.assign .invalid m })

/-! ## Where a party is -/

/-- Where a party is in its function, as far as the handles go. -/
inductive Point where
  /-- The provider is in no call, or is to return from one. -/
  | idle
  /-- `SetUsageScenario` has been called. -/
  | calling
  /-- There is no channel. -/
  | lacking
  /-- There is a channel. -/
  | ready
  /-- A pipe has been asked for. -/
  | created
  | piped
  /-- A thread has been asked for, and the answer is to be assigned. -/
  | started (h : Handle)
  /-- `~OVirtProvider` has been called. -/
  | destroying
  | threadTest | terminate | threadClose | threadClosing
  | pipeTest | disconnect | pipeClose | pipeClosing
  /-- `DestroyChannel` has come to its end. -/
  | destroyed
  /-- There is no channel, or not any more. -/
  | unchannelled
  | released
  /-- The thread is at work. -/
  | working
  /-- The thread has closed its pipe. -/
  | closed
  deriving DecidableEq, Repr

namespace Point

open HandleOp

def next (m : Point) : (a : HandleOp) → a.Resp → Point
  | hasChannel, has =>
    match m with
    | destroying => if has then threadTest else unchannelled
    | _ => if has then ready else lacking
  | newChannel, made => if made then calling else lacking
  | createNamedPipe, _ => created
  | createThread, h => started h
  | assignThread _, _ | answer _, _ => idle
  | load .thread, h =>
    match m with
    | threadTest => if h = .invalid then pipeTest else terminate
    | threadClose => if h = .invalid then pipeTest else threadClosing
    | _ => m
  | load .pipe, h =>
    match m with
    | created => if h = .invalid then idle else piped
    | pipeTest => if h = .null then destroyed else disconnect
    | pipeClose => if h = .invalid then destroyed else pipeClosing
    | _ => m
  | terminateThread, _ => threadClose
  | closeHandle .thread, _ => pipeTest
  | closeHandle .pipe, _ => if m = working then closed else destroyed
  | disconnectNamedPipe, _ => if m = disconnect then pipeClose else m
  | deleteChannel, _ => unchannelled
  | deleteThis, _ => released
  | hasCredentials, _ | newCredentials, _ | releaseCredentials, _ | setListener _, _
  | connectNamedPipe, _ | readFile, _ | writeFile, _ => m

/-- The operations of a party, by where it is. -/
def allows (m : Point) : HandleOp → Prop
  | hasCredentials => m = calling ∨ m = unchannelled
  | hasChannel => m = calling ∨ m = lacking ∨ m = ready ∨ m = destroying
  | newCredentials | newChannel => m = lacking
  | releaseCredentials => m = lacking ∨ m = unchannelled
  | deleteChannel => m = destroyed
  | deleteThis => m = unchannelled
  | setListener listening => m = if listening then idle else destroyed
  | answer _ => m = idle ∨ m = lacking
  | load .thread => m = idle ∨ m = threadTest ∨ m = threadClose
  | load .pipe => m = created ∨ m = pipeTest ∨ m = pipeClose ∨ m = working
  | assignThread h => m = started h ∨ h = .null ∧ (m = working ∨ m = closed)
  | createNamedPipe => m = ready
  | createThread => m = piped
  | connectNamedPipe | readFile | writeFile => m = working
  | disconnectNamedPipe => m = working ∨ m = disconnect
  | terminateThread => m = terminate
  | closeHandle .thread => m = threadClosing
  | closeHandle .pipe => m = working ∨ m = pipeClosing

/-- The provider is to terminate the thread, if it has a channel. -/
def IsToTerminate (m : Point) : Prop := m = destroying ∨ m = threadTest ∨ m = terminate

/-- The party is at the end of a function. -/
def IsRest (m : Point) : Prop := m = idle ∨ m = released

/-- What a thread at work does. -/
theorem working_allows {a : HandleOp} (h : working.allows a) :
    a = .load .pipe ∨ a = .connectNamedPipe ∨ a = .readFile ∨ a = .writeFile ∨
      a = .disconnectNamedPipe ∨ a = .closeHandle .pipe ∨ a = .assignThread .null := by
  cases a with
  | setListener listening => cases listening <;> cases h
  | load x => cases x <;> simp_all [allows]
  | closeHandle x => cases x <;> simp_all [allows]
  | _ => simp_all [allows]

/-- A thread that has closed its pipe is to come to its end. -/
theorem closed_allows {a : HandleOp} (h : closed.allows a) : a = .assignThread .null := by
  cases a with
  | setListener listening => cases listening <;> cases h
  | load x => cases x <;> simp_all [allows]
  | closeHandle x => cases x <;> simp_all [allows]
  | _ => simp_all [allows]

/-- The provider gets to its end by deleting itself. -/
theorem eq_deleteThis {m : Point} {a : HandleOp} (hallows : m.allows a) {r : a.Resp}
    (h : m.next a r = .released) : a = .deleteThis := by
  cases a with
  | deleteThis => rfl
  | load x => cases x <;> rcases hallows with rfl | rfl | rfl | rfl <;> grind [next]
  | closeHandle x => cases x <;> grind [next]
  | _ => grind [next, allows]

end Point

/-- Where `SetUsageScenario` starts. -/
def UsageScenario.point : UsageScenario → Point
  | logon | unlockWorkstation => .calling
  | changePassword | credUI | other => .idle

/-- Where a party is, by what it has done. -/
def flow : Monitor HandleOp.Resp Point where
  allows := Point.allows
  may _ _ _ := True
  next := Point.next

section Flow

open HandleOp

variable {α : Type} {Q : Except Empty α → Point → Prop} {m : Point}

theorem flow_bind {a : HandleOp} {f : a.Resp → HandleM α} :
    flow.wp (perform a >>= f) Q m ↔ m.allows a ∧ ∀ r, flow.wp (f r) Q (m.next a r) :=
  and_congr_right fun _ ↦ ⟨fun h r ↦ h r trivial, fun h r _ ↦ h r⟩

/-- A handle is closed unless it is `INVALID_HANDLE_VALUE`. -/
theorem flow_safeCloseHandle {x : Member} {Q : Except Empty Unit → Point → Prop}
    (hload : m.allows (load x)) (hinvalid : Q (.ok ()) (m.next (load x) .invalid))
    (hclose : ∀ h, h ≠ .invalid → (m.next (load x) h).allows (closeHandle x) ∧
      Q (.ok ()) ((m.next (load x) h).next (closeHandle x) ())) :
    flow.wp (safeCloseHandle x) Q m := by
  refine flow_bind.mpr ⟨hload, fun h ↦ ?_⟩
  split
  case isTrue hh => exact ⟨(hclose h hh).1, fun _ _ ↦ (hclose h hh).2⟩
  case isFalse hh =>
    obtain rfl := not_not.mp hh
    exact hinvalid

/-- **The thread** of a channel. -/
theorem flow_credentialsChannelWait :
    flow.wp credentialsChannelWait (fun _ ↦ Point.IsRest) .working := by
  have hrest : flow.wp (do
      perform writeFile
      perform disconnectNamedPipe
      safeCloseHandle .pipe
      perform (assignThread .null)) (fun _ ↦ Point.IsRest) .working := by
    refine flow_bind.mpr ⟨rfl, fun _ ↦ flow_bind.mpr ⟨.inl rfl, fun _ ↦ ?_⟩⟩
    rw [Monitor.wp_bind]
    refine flow_safeCloseHandle (.inr (.inr (.inr rfl))) ?_ fun h _ ↦ ⟨.inl rfl, ?_⟩
    · exact ⟨.inr ⟨rfl, .inl rfl⟩, fun _ _ ↦ .inl rfl⟩
    · exact ⟨.inr ⟨rfl, .inr rfl⟩, fun _ _ ↦ .inl rfl⟩
  refine flow_bind.mpr ⟨rfl, fun bConnected ↦ ?_⟩
  cases bConnected with
  | false => exact hrest
  | true => exact flow_bind.mpr ⟨rfl, fun _ ↦ hrest⟩

/-- The provider has a channel then, or it has none. -/
theorem flow_createMembers : flow.wp createMembers
    (fun _ m ↦ m = .calling ∨ m = .lacking ∨ m = .ready) .calling := by
  refine flow_bind.mpr ⟨.inl rfl, fun credentials ↦ ?_⟩
  split
  · exact .inl rfl
  refine flow_bind.mpr ⟨.inl rfl, fun channel ↦ ?_⟩
  cases channel with
  | true => exact .inr (.inr rfl)
  | false =>
    refine flow_bind.mpr ⟨rfl, fun made ↦ ?_⟩
    split
    · refine flow_bind.mpr ⟨rfl, fun made ↦ ?_⟩
      cases made with
      | true => exact .inl rfl
      | false => exact flow_bind.mpr ⟨.inl rfl, fun _ ↦ .inr (.inl rfl)⟩
    · exact .inr (.inl rfl)

theorem flow_createChannel :
    flow.wp createChannel (fun _ m ↦ m = .idle) .ready := by
  have hrest : flow.wp (do
      let hCredsThread ← perform (load .thread)
      return decide (hCredsThread ≠ .invalid)) (fun _ m ↦ m = .idle) .idle :=
    flow_bind.mpr ⟨.inl rfl, fun _ ↦ rfl⟩
  refine flow_bind.mpr ⟨rfl, fun _ ↦ flow_bind.mpr ⟨.inl rfl, fun hCredsPipe ↦ ?_⟩⟩
  by_cases hpipe : hCredsPipe = .invalid
  · subst hpipe
    exact hrest
  · have hpiped : Point.next .created (load .pipe) hCredsPipe = .piped := if_neg hpipe
    have hpoint : Point.next .ready createNamedPipe () = .created := rfl
    rw [if_pos hpipe, hpoint, hpiped]
    refine flow_bind.mpr ⟨rfl, fun h ↦ flow_bind.mpr ⟨.inl rfl, fun _ ↦ ?_⟩⟩
    refine flow_bind.mpr ⟨.inl rfl, fun hCredsThread ↦ ?_⟩
    split
    · exact flow_bind.mpr ⟨rfl, fun _ ↦ hrest⟩
    · exact hrest

/-- **`SetUsageScenario`** starts in `calling` if it is about a channel. -/
theorem flow_setUsageScenario (cpus : UsageScenario) :
    flow.wp (setUsageScenario cpus) (fun _ ↦ Point.IsRest) cpus.point := by
  have hanswer (hr : HResult) :
      flow.wp (perform (answer hr) : HandleM Unit) (fun _ ↦ Point.IsRest) .idle :=
    ⟨.inl rfl, fun _ _ ↦ .inl rfl⟩
  have hcreate : flow.wp (setUsageScenario .logon) (fun _ ↦ Point.IsRest) .calling := by
    rw [setUsageScenario, Monitor.wp_bind]
    refine Monitor.wp_mono ?_ flow_createMembers
    rintro (⟨⟨⟩⟩ | hr) m hm
    refine flow_bind.mpr ⟨?_, fun channel ↦ ?_⟩
    · rcases hm with rfl | rfl | rfl <;> simp [Point.allows]
    have hpoint : m.next hasChannel channel = if channel then .ready else .lacking := by
      rcases hm with rfl | rfl | rfl <;> rfl
    rw [hpoint]
    cases channel with
    | true =>
      refine (Monitor.wp_bind).mpr (Monitor.wp_mono ?_ flow_createChannel)
      rintro (⟨⟨⟩⟩ | created) m rfl
      exact hanswer (.ofBool created)
    | false => exact ⟨.inr rfl, fun _ _ ↦ .inl rfl⟩
  cases cpus with
  | logon | unlockWorkstation => exact hcreate
  | changePassword | credUI => exact hanswer .notImpl
  | other => exact hanswer .invalidArg

theorem flow_destroyChannel :
    flow.wp destroyChannel (fun _ m ↦ m = .destroyed) .threadTest := by
  have hdestroyed : flow.wp (perform (setListener false) : HandleM Unit)
      (fun _ m ↦ m = .destroyed) .destroyed := ⟨rfl, fun _ _ ↦ rfl⟩
  have hpipe : flow.wp (do
      let hCredsPipe ← perform (load .pipe)
      if hCredsPipe ≠ .null then
        perform disconnectNamedPipe
        safeCloseHandle .pipe
      perform (setListener false)) (fun _ m ↦ m = .destroyed) .pipeTest := by
    refine flow_bind.mpr ⟨.inr (.inl rfl), fun hCredsPipe ↦ ?_⟩
    by_cases hnull : hCredsPipe = .null
    · subst hnull
      exact hdestroyed
    · have hpoint : Point.next .pipeTest (load .pipe) hCredsPipe = .disconnect := if_neg hnull
      rw [if_pos hnull, hpoint]
      refine flow_bind.mpr ⟨.inr rfl, fun _ ↦ ?_⟩
      rw [Monitor.wp_bind]
      refine flow_safeCloseHandle (.inr (.inr (.inl rfl))) hdestroyed fun h hh ↦ ?_
      have hclosing : Point.next .pipeClose (load .pipe) h = .pipeClosing := if_neg hh
      exact ⟨.inr hclosing, hclosing ▸ hdestroyed⟩
  refine flow_bind.mpr ⟨.inr (.inl rfl), fun hCredsThread ↦ ?_⟩
  by_cases hinvalid : hCredsThread = .invalid
  · subst hinvalid
    exact hpipe
  · have hpoint : Point.next .threadTest (load .thread) hCredsThread = .terminate :=
      if_neg hinvalid
    rw [if_pos hinvalid, hpoint]
    refine flow_bind.mpr ⟨rfl, fun _ ↦ ?_⟩
    rw [Monitor.wp_bind]
    refine flow_safeCloseHandle (.inr (.inr rfl)) hpipe fun h hh ↦ ?_
    exact ⟨if_neg hh, hpipe⟩

/-- **`~OVirtProvider`** ends with a provider that is released. -/
theorem flow_destroy : flow.wp destroy (fun _ ↦ Point.IsRest) .destroying := by
  have hrest : flow.wp (do
      if ← perform hasCredentials then
        perform releaseCredentials
      perform deleteThis : HandleM Unit) (fun _ ↦ Point.IsRest) .unchannelled := by
    refine flow_bind.mpr ⟨.inr rfl, fun credentials ↦ ?_⟩
    split
    · exact flow_bind.mpr ⟨.inr rfl, fun _ ↦ ⟨rfl, fun _ _ ↦ .inr rfl⟩⟩
    · exact ⟨rfl, fun _ _ ↦ .inr rfl⟩
  refine flow_bind.mpr ⟨.inr (.inr (.inr rfl)), fun channel ↦ ?_⟩
  cases channel with
  | false => exact hrest
  | true =>
    refine (Monitor.wp_bind).mpr (Monitor.wp_mono ?_ flow_destroyChannel)
    rintro (⟨⟨⟩⟩ | ⟨⟩) m rfl
    exact flow_bind.mpr ⟨rfl, fun _ ↦ hrest⟩

end Flow

end GuestAgent.OVirtProvider
