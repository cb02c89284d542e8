import GuestAgent.Windows.Provider
import GuestAgent.Library.Transition

/-!
# The handles of a credentials channel

A member of the channel has two values that are no handles, and the functions do not agree on which
of them is for what.  The constructor and `SafeCloseHandle` use `INVALID_HANDLE_VALUE`; a thread
that could not be created, and one that has come to its end, leave `NULL`; and `DestroyChannel`
takes a pipe for open unless it is `NULL`.  `not_always_sound` is a run in which nothing fails and a
member is no handle in the end, and `not_sound_of_end` says that no thread comes to its end without
that.

`Orderly` is what a run has to leave out for every member to be a handle or none, every call to get
a handle that is open, and every handle to be closed.  Then the channel has a life that is easy to
tell, a `Phase` at a time, and `always_sound` is read off it.
-/

set_option autoImplicit false

namespace GuestAgent.OVirtProvider

open Effect Effect.Prog Transition

/-! ## Runs -/

/-- The provider and its threads. -/
abbrev Process := Pool HandleOp.Resp Empty Provider Point Party

/-- A call of the provider. -/
inductive Call where
  | setUsageScenario (cpus : UsageScenario)
  /-- The last reference is released. -/
  | destroy
  deriving DecidableEq, Repr

def Call.program : Call → HandleM Unit
  | setUsageScenario cpus => OVirtProvider.setUsageScenario cpus
  | destroy => OVirtProvider.destroy

def Call.point : Call → Point
  | setUsageScenario cpus => cpus.point
  | destroy => .destroying

/-- What happens. -/
inductive Step where
  /-- The provider is called, unless it is in a call or has been deleted. -/
  | call (c : Call)
  /-- A party performs its next operation, which succeeds if it can and `ok` says so. -/
  | act (i : Party) (ok : Bool)
  deriving DecidableEq, Repr

/-- A thread runs once it has been created and until it is terminated. -/
def Party.Runs (s : Provider) : Party → Prop
  | provider => True
  | channelThread g => g ∈ s.running

instance (s : Provider) : DecidablePred (Party.Runs s)
  | .provider => isTrue trivial
  | .channelThread g => inferInstanceAs (Decidable (g ∈ s.running))

namespace Process

/-- The provider as its constructor leaves it. -/
def init : Process where
  shared := ⟨⟨.absent, .invalid, .invalid, 0, [], [], []⟩, false, false, false, none, []⟩
  thread
    | .provider => ⟨pure (), .idle⟩
    | .channelThread _ => ⟨credentialsChannelWait, .working⟩

def step (s : Process) : Step → Process
  | .call c => if s.shared.released then s else s.start .provider c.program c.point
  | .act i ok => if i.Runs s.shared then s.act handle flow i (i, ok) else s

end Process

/-- The calls whose handle has to be open. -/
def HandleOp.NeedsHandle : HandleOp → Prop
  | readFile | disconnectNamedPipe | terminateThread | closeHandle _ => True
  | _ => False

/-- Each member is `INVALID_HANDLE_VALUE` or an open handle, the handles that were passed to a call
were open and the caller's own, and once the channel is deleted every handle has been closed
once. -/
structure Provider.Sound (s : Provider) : Prop where
  member : ∀ m, s.member m = .invalid ∨ s.isOpen (s.member m)
  use : ∀ u ∈ s.uses, u.call.NeedsHandle → u.wasOpen ∧ u.user.Owns u.handle
  closed : s.channel = .deleted → ∀ h ∈ s.created, s.closed.count h = 1

namespace Process

/-- The state is sound. -/
def Sound (s : Process) : Prop := s.shared.Sound

/-- What a run has to leave out.  A pipe is asked for while there is one, or is created while there
is a thread; a thread cannot be created; a thread comes to its end; the provider is destroyed when
its channel has no pipe, or the thread closes the pipe when it is to be terminated. -/
def Orderly (s : Process) : Step → Prop
  | .call (.setUsageScenario _) => True
  | .call .destroy =>
    (s.thread .provider).rest.IsDone → s.shared.channel = .present →
      s.shared.isOpen s.shared.pipe
  | .act .provider ok =>
    match (s.thread .provider).rest.next? with
    | some .createNamedPipe => s.shared.pipe = .invalid ∧ (ok → s.shared.thread = .invalid)
    | some .createThread => ok
    | _ => True
  | .act (.channelThread g) _ =>
    g ∈ s.shared.running → match (s.thread (.channelThread g)).rest.next? with
      | some (.assignThread _) => False
      | some (.closeHandle .pipe) => ¬ (s.thread .provider).account.IsToTerminate
      | _ => True

end Process

/-! ## The life of a channel -/

/-- What becomes of a channel, in a run that leaves those steps out. -/
inductive Phase where
  | absent
  /-- It has no pipe. -/
  | fresh
  | piped
  /-- It has a thread, whose handle is to be assigned. -/
  | started
  | startedClosed
  /-- It has a pipe and a thread. -/
  | waiting
  /-- The thread has closed the pipe. -/
  | closed
  | terminated
  | threadClosed
  | pipeClosed
  | deleted

namespace Phase

/-- The handles of a process whose channel is so far. -/
def handles : Phase → Handles
  | absent => ⟨.absent, .invalid, .invalid, 0, [], [], []⟩
  | fresh => ⟨.present, .invalid, .invalid, 0, [], [], []⟩
  | piped => ⟨.present, .pipe 1, .invalid, 1, [.pipe 1], [], []⟩
  | started => ⟨.present, .pipe 1, .invalid, 1, [.thread 1, .pipe 1], [], [1]⟩
  | startedClosed => ⟨.present, .invalid, .invalid, 1, [.thread 1, .pipe 1], [.pipe 1], [1]⟩
  | waiting => ⟨.present, .pipe 1, .thread 1, 1, [.thread 1, .pipe 1], [], [1]⟩
  | closed => ⟨.present, .invalid, .thread 1, 1, [.thread 1, .pipe 1], [.pipe 1], [1]⟩
  | terminated => ⟨.present, .pipe 1, .thread 1, 1, [.thread 1, .pipe 1], [], []⟩
  | threadClosed => ⟨.present, .pipe 1, .invalid, 1, [.thread 1, .pipe 1], [.thread 1], []⟩
  | pipeClosed =>
    ⟨.present, .invalid, .invalid, 1, [.thread 1, .pipe 1], [.pipe 1, .thread 1], []⟩
  | deleted => ⟨.deleted, .invalid, .invalid, 1, [.thread 1, .pipe 1], [.pipe 1, .thread 1], []⟩

/-- Where the thread is. -/
def threadPoint : Phase → Point
  | startedClosed | closed => .closed
  | _ => .working

/-- The provider can be at `m`. -/
def Admits (φ : Phase) : Point → Prop
  | .idle | .calling => φ = absent ∨ φ = fresh ∨ φ = waiting ∨ φ = closed
  | .lacking => φ = absent
  | .ready => φ = fresh ∨ φ = waiting ∨ φ = closed
  | .created => φ = fresh ∨ φ = piped ∨ φ = closed
  | .piped => φ = piped
  | .started h => h = .thread 1 ∧ (φ = started ∨ φ = startedClosed)
  | .destroying => φ = absent ∨ φ = waiting
  | .threadTest | .terminate => φ = waiting
  | .threadClose | .threadClosing => φ = terminated
  | .pipeTest | .disconnect | .pipeClose | .pipeClosing => φ = threadClosed
  | .destroyed => φ = pipeClosed
  | .unchannelled | .released => φ = absent ∨ φ = deleted
  | .working | .closed => False

end Phase

/-- A handle was open and the caller's own. -/
def Use.Good (u : Use) : Prop := u.wasOpen ∧ u.user.Owns u.handle

/-- **Every phase is sound.** -/
theorem Provider.sound_of_phase {s : Provider} {φ : Phase} (hs : s.toHandles = φ.handles)
    (huses : ∀ u ∈ s.uses, u.Good) : s.Sound := by
  refine ⟨fun m ↦ ?_, fun u hu _ ↦ huses u hu, fun hdeleted ↦ ?_⟩
  · rw [hs]
    cases φ <;> cases m <;> decide
  · rw [hs] at hdeleted ⊢
    cases φ <;> first | decide | cases hdeleted

/-! ## The operations of the provider -/

/-- The channel has got to a phase that has the handles of `s` and admits `m`, its thread is where
it was, and every handle that was used was good. -/
structure Follows (s : Provider) (m n : Point) (φ : Phase) : Prop where
  handles : s.toHandles = φ.handles
  admits : φ.Admits m
  thread : φ.threadPoint = n
  uses : ∀ u ∈ s.uses, u.Good

section Provider

variable {s : Provider} {m n : Point} {φ : Phase} {ok : Bool}

theorem forall_mem_use (huses : ∀ u ∈ s.uses, u.Good) {user : Party} {call : HandleOp} {h : Handle}
    (hopen : s.isOpen h) (howns : user.Owns h) : ∀ u ∈ (s.use user call h).uses, u.Good :=
  List.forall_mem_cons.mpr ⟨⟨hopen, howns⟩, huses⟩

/-- The provider looks whether there is a channel. -/
theorem follows_hasChannel (hs : Follows s m n φ) (hallows : m.allows .hasChannel) :
    Follows s (m.next .hasChannel (s.channel = .present)) n φ := by
  obtain ⟨hhandles, hm, hn, huses⟩ := hs
  rw [hhandles]
  refine ⟨hhandles, ?_, hn, huses⟩
  rcases hallows with rfl | rfl | rfl | rfl
  · rcases hm with rfl | rfl | rfl | rfl
    · exact rfl
    · exact .inl rfl
    · exact .inr (.inl rfl)
    · exact .inr (.inr rfl)
  · obtain rfl := hm
    exact rfl
  · rcases hm with rfl | rfl | rfl
    · exact .inl rfl
    · exact .inr (.inl rfl)
    · exact .inr (.inr rfl)
  · rcases hm with rfl | rfl
    · exact .inl rfl
    · exact rfl

/-- The provider reads a member. -/
theorem follows_load {x : Member} (hs : Follows s m n φ) (hallows : m.allows (.load x)) :
    Follows s (m.next (.load x) (s.member x)) n φ := by
  obtain ⟨hhandles, hm, hn, huses⟩ := hs
  rw [hhandles]
  refine ⟨hhandles, ?_, hn, huses⟩
  cases x with
  | thread =>
    rcases hallows with rfl | rfl | rfl
    · exact hm
    · obtain rfl := hm
      exact rfl
    · obtain rfl := hm
      exact rfl
  | pipe =>
    rcases hallows with rfl | rfl | rfl | rfl
    · rcases hm with rfl | rfl | rfl
      · exact .inr (.inl rfl)
      · exact rfl
      · exact .inr (.inr (.inr rfl))
    · obtain rfl := hm
      exact rfl
    · obtain rfl := hm
      exact rfl
    · exact hm.elim

/-- The provider asks for a pipe, without losing one. -/
theorem follows_createNamedPipe (hs : Follows s .ready n φ) (hpipe : s.pipe = .invalid)
    (hthread : ok → s.thread = .invalid) :
    ∃ ψ, Follows (handle (.provider, ok) .createNamedPipe s).2 .created n ψ := by
  obtain ⟨hhandles, hm, hn, huses⟩ := hs
  obtain ⟨handles, credentials, listening, released, hr, uses⟩ := s
  obtain rfl : handles = φ.handles := hhandles
  rcases hm with rfl | rfl | rfl
  · cases ok with
    | true => exact ⟨.piped, rfl, .inr (.inl rfl), hn, huses⟩
    | false => exact ⟨.fresh, rfl, .inl rfl, hn, huses⟩
  · cases hpipe
  · cases ok with
    | true => cases hthread rfl
    | false => exact ⟨.closed, rfl, .inr (.inr rfl), hn, huses⟩

/-- The provider closes the handle of a member. -/
theorem follows_closeHandle {x : Member} (hs : Follows s m n φ)
    (hallows : m.allows (.closeHandle x)) :
    ∃ ψ, Follows (handle (.provider, ok) (.closeHandle x) s).2 (m.next (.closeHandle x) ()) n
      ψ := by
  obtain ⟨hhandles, hm, hn, huses⟩ := hs
  obtain ⟨handles, credentials, listening, released, hr, uses⟩ := s
  obtain rfl : handles = φ.handles := hhandles
  cases x with
  | thread =>
    obtain rfl := hallows
    obtain rfl := hm
    exact ⟨.threadClosed, rfl, rfl, hn, forall_mem_use huses rfl trivial⟩
  | pipe =>
    rcases hallows with rfl | rfl
    · exact hm.elim
    · obtain rfl := hm
      exact ⟨.pipeClosed, rfl, rfl, hn, forall_mem_use huses rfl trivial⟩

/-- An operation of the provider. -/
theorem follows_provider (ok : Bool) {a : HandleOp} (hs : Follows s m n φ) (hallows : m.allows a)
    (hpipe : a = .createNamedPipe → s.pipe = .invalid ∧ (ok → s.thread = .invalid))
    (hthread : a = .createThread → ok) :
    ∃ ψ, Follows (handle (.provider, ok) a s).2 (m.next a (handle (.provider, ok) a s).1) n ψ := by
  obtain ⟨handles, credentials, listening, released, hr, uses⟩ := s
  obtain rfl : handles = φ.handles := hs.handles
  have hm := hs.admits
  have hn := hs.thread
  have huses := hs.uses
  cases a with
  | hasChannel => exact ⟨φ, follows_hasChannel hs hallows⟩
  | load x => exact ⟨φ, follows_load hs hallows⟩
  | hasCredentials | releaseCredentials | setListener => exact ⟨φ, rfl, hm, hn, huses⟩
  | newCredentials =>
    obtain rfl := hallows
    exact ⟨φ, rfl, hm, hn, huses⟩
  | newChannel =>
    obtain rfl := hallows
    obtain rfl := hm
    cases ok with
    | true => exact ⟨.fresh, rfl, .inr (.inl rfl), hn, huses⟩
    | false => exact ⟨.absent, rfl, rfl, hn, huses⟩
  | createNamedPipe =>
    obtain rfl := hallows
    exact follows_createNamedPipe hs (hpipe rfl).1 (hpipe rfl).2
  | createThread =>
    obtain rfl := hallows
    obtain rfl := hm
    obtain rfl : ok = true := hthread rfl
    exact ⟨.started, rfl, ⟨rfl, .inl rfl⟩, hn, huses⟩
  | assignThread h =>
    rcases hallows with rfl | ⟨rfl, rfl | rfl⟩
    · obtain ⟨rfl, rfl | rfl⟩ := hm
      · exact ⟨.waiting, rfl, .inr (.inr (.inl rfl)), hn, huses⟩
      · exact ⟨.closed, rfl, .inr (.inr (.inr rfl)), hn, huses⟩
    · exact hm.elim
    · exact hm.elim
  | answer hr =>
    rcases hallows with rfl | rfl
    · exact ⟨φ, rfl, hm, hn, huses⟩
    · exact ⟨φ, rfl, .inl hm, hn, huses⟩
  | connectNamedPipe | readFile | writeFile =>
    obtain rfl := hallows
    exact hm.elim
  | terminateThread =>
    obtain rfl := hallows
    obtain rfl := hm
    exact ⟨.terminated, rfl, rfl, hn, forall_mem_use huses rfl trivial⟩
  | disconnectNamedPipe =>
    rcases hallows with rfl | rfl
    · exact hm.elim
    · obtain rfl := hm
      exact ⟨.threadClosed, rfl, rfl, hn, forall_mem_use huses rfl trivial⟩
  | closeHandle x => exact follows_closeHandle hs hallows
  | deleteChannel =>
    obtain rfl := hallows
    obtain rfl := hm
    exact ⟨.deleted, rfl, .inr rfl, hn, huses⟩
  | deleteThis =>
    obtain rfl := hallows
    exact ⟨φ, rfl, hm, hn, huses⟩

/-! ## The operations of the thread -/

/-- Only the first thread there is runs, and only before it is terminated. -/
theorem Phase.eq_of_mem_running {g : ℕ} (h : g ∈ φ.handles.running) :
    g = 1 ∧ (φ = started ∨ φ = startedClosed ∨ φ = waiting ∨ φ = closed) := by
  cases φ <;> simp_all [Phase.handles]

/-- The thread closes the pipe before its handle is assigned. -/
theorem Phase.admits_startedClosed (h : started.Admits m) : startedClosed.Admits m := by
  cases m with
  | started => exact ⟨h.1, .inr rfl⟩
  | _ => simp [Admits] at h

/-- The thread closes the pipe when it is not to be terminated. -/
theorem Phase.admits_closed (h : waiting.Admits m) (hm : ¬ m.IsToTerminate) : closed.Admits m := by
  cases m <;> simp_all [Admits, Point.IsToTerminate]

/-- A thread at work calls with its own pipe, which is open. -/
theorem forall_mem_use_pipe (hφ : φ = .started ∨ φ = .waiting) (hs : s.toHandles = φ.handles)
    (huses : ∀ u ∈ s.uses, u.Good) (call : HandleOp) :
    ∀ u ∈ (s.use (.channelThread 1) call s.pipe).uses, u.Good := by
  refine forall_mem_use huses ?_ ?_ <;> rw [hs] <;> rcases hφ with rfl | rfl <;> rfl

/-- An operation of the thread at work. -/
theorem follows_working {a : HandleOp} (hφ : φ = .started ∨ φ = .waiting)
    (hs : Follows s m .working φ) (hallows : Point.working.allows a)
    (hend : a ≠ .assignThread .null) (hclose : a = .closeHandle .pipe → ¬ m.IsToTerminate) :
    ∃ ψ, Follows (handle (.channelThread 1, ok) a s).2 m
      (Point.working.next a (handle (.channelThread 1, ok) a s).1) ψ := by
  have huse := forall_mem_use_pipe hφ hs.handles hs.uses
  rcases Point.working_allows hallows with rfl | rfl | rfl | rfl | rfl | rfl | rfl
  · exact ⟨φ, hs⟩
  · exact ⟨φ, hs.handles, hs.admits, hs.thread, huse _⟩
  · exact ⟨φ, hs.handles, hs.admits, hs.thread, huse _⟩
  · exact ⟨φ, hs.handles, hs.admits, hs.thread, huse _⟩
  · exact ⟨φ, hs.handles, hs.admits, hs.thread, huse _⟩
  · obtain ⟨handles, credentials, listening, released, hr, uses⟩ := s
    obtain rfl : handles = φ.handles := hs.handles
    rcases hφ with rfl | rfl
    · exact ⟨.startedClosed, rfl, Phase.admits_startedClosed hs.admits, rfl, huse _⟩
    · exact ⟨.closed, rfl, Phase.admits_closed hs.admits (hclose rfl), rfl, huse _⟩
  · exact absurd rfl hend

/-- An operation of the thread. -/
theorem follows_thread (ok : Bool) {a : HandleOp} (hs : Follows s m n φ) (hrunning : 1 ∈ s.running)
    (hallows : n.allows a) (hend : a ≠ .assignThread .null)
    (hclose : a = .closeHandle .pipe → ¬ m.IsToTerminate) :
    ∃ ψ, Follows (handle (.channelThread 1, ok) a s).2 m
      (n.next a (handle (.channelThread 1, ok) a s).1) ψ := by
  rw [hs.handles] at hrunning
  obtain rfl := hs.thread
  rcases (Phase.eq_of_mem_running hrunning).2 with rfl | rfl | rfl | rfl
  · exact follows_working (.inl rfl) hs hallows hend hclose
  · exact absurd (Point.closed_allows hallows) hend
  · exact follows_working (.inr rfl) hs hallows hend hclose
  · exact absurd (Point.closed_allows hallows) hend

/-- A provider that is deleted stays so. -/
theorem released_handle (e : Party × Bool) (a : HandleOp) (h : s.released) :
    (handle e a s).2.released := by
  cases a with
  | deleteThis => rfl
  | newChannel | createNamedPipe | createThread =>
    rw [handle]
    split <;> exact h
  | closeHandle x => cases x <;> exact h
  | _ => exact h

end Provider

/-! ## The invariant -/

namespace Process

structure Inv (s : Process) : Prop where
  inOrder : s.InOrder flow Point.IsRest
  follows : ∃ φ, Follows s.shared (s.thread .provider).account
    (s.thread (.channelThread 1)).account φ
  released : (s.thread .provider).account = .released → s.shared.released

section Step

variable {s : Process}

theorem inv_init : init.Inv where
  inOrder
    | .provider => .inl rfl
    | .channelThread _ => flow_credentialsChannelWait
  follows := ⟨.absent, rfl, .inl rfl, rfl, by simp [init]⟩
  released h := by cases h

/-- What a step of a party does: nothing, or one operation that is in order. -/
theorem act_cases (h : s.InOrder flow Point.IsRest) (i : Party) (ok : Bool) :
    s.step (.act i ok) = s ∨ i.Runs s.shared ∧ ∃ a k, (s.thread i).rest = .call a k ∧
      (s.thread i).account.allows a ∧
      s.step (.act i ok) = ⟨(handle (i, ok) a s.shared).2, Function.update s.thread i
        ⟨k (handle (i, ok) a s.shared).1,
          (s.thread i).account.next a (handle (i, ok) a s.shared).1⟩⟩ := by
  rw [step]
  by_cases hruns : i.Runs s.shared
  · rw [if_pos hruns]
    exact (h.act_cases handle i (i, ok)).imp id fun hact ↦ ⟨hruns, hact⟩
  · exact .inl (if_neg hruns)

theorem inOrder_step (h : s.InOrder flow Point.IsRest) (i : Party) (ok : Bool) :
    (s.step (.act i ok)).InOrder flow Point.IsRest := by
  rw [step]
  split
  · exact Pool.inOrder_act h fun _ _ ↦ trivial
  · exact h

/-- **An operation of the provider.** -/
theorem inv_provider (h : s.Inv) {ok : Bool} (horderly : s.Orderly (.act .provider ok)) :
    (s.step (.act .provider ok)).Inv := by
  have hin := inOrder_step h.inOrder .provider ok
  rcases act_cases h.inOrder .provider ok with hsame | ⟨-, a, k, hrest, hallows, hact⟩
  · rw [hsame]
    exact h
  · obtain ⟨φ, hφ⟩ := h.follows
    rw [Orderly, hrest] at horderly
    have hfollows := follows_provider ok hφ hallows (by rintro rfl; exact horderly)
      (by rintro rfl; exact horderly)
    rw [hact] at hin ⊢
    refine ⟨hin, ?_, fun hreleased ↦ ?_⟩
    · have hne : Party.channelThread 1 ≠ .provider := by simp
      simpa only [Function.update_self, Function.update_of_ne hne] using hfollows
    · simp only [Function.update_self] at hreleased
      obtain rfl := Point.eq_deleteThis hallows hreleased
      rfl

/-- **An operation of a thread.** -/
theorem inv_channelThread (h : s.Inv) {g : ℕ} {ok : Bool}
    (horderly : s.Orderly (.act (.channelThread g) ok)) :
    (s.step (.act (.channelThread g) ok)).Inv := by
  have hin := inOrder_step h.inOrder (.channelThread g) ok
  rcases act_cases h.inOrder (.channelThread g) ok with
    hsame | ⟨hruns, a, k, hrest, hallows, hact⟩
  · rw [hsame]
    exact h
  · obtain ⟨φ, hφ⟩ := h.follows
    have hrunning : g ∈ φ.handles.running := hφ.handles ▸ hruns
    obtain rfl := (Phase.eq_of_mem_running hrunning).1
    have horderly := horderly hruns
    rw [hrest] at horderly
    have hfollows := follows_thread ok hφ hruns hallows (by rintro rfl; exact horderly)
      (by rintro rfl; exact horderly)
    have hne : Party.provider ≠ .channelThread 1 := by simp
    rw [hact] at hin ⊢
    refine ⟨hin, ?_, fun hreleased ↦ released_handle _ _ (h.released ?_)⟩
    · simpa only [Function.update_self, Function.update_of_ne hne] using hfollows
    · simpa only [Function.update_of_ne hne] using hreleased

theorem flow_program (c : Call) : flow.wp c.program (fun _ ↦ Point.IsRest) c.point := by
  cases c with
  | setUsageScenario cpus => exact flow_setUsageScenario cpus
  | destroy => exact flow_destroy

/-- A provider that is in no call and not deleted can be called. -/
theorem admits_call {φ : Phase} {c : Call} (hidle : φ.Admits .idle)
    (hdestroy : c = .destroy → φ.handles.channel = .present →
      φ.handles.isOpen φ.handles.pipe) : φ.Admits c.point := by
  cases c with
  | setUsageScenario cpus => cases cpus <;> exact hidle
  | destroy =>
    rcases hidle with rfl | rfl | rfl | rfl
    · exact .inl rfl
    · cases hdestroy rfl rfl
    · exact .inr rfl
    · cases hdestroy rfl rfl

/-- **A call of the provider.** -/
theorem inv_call (h : s.Inv) {c : Call} (horderly : s.Orderly (.call c)) :
    (s.step (.call c)).Inv := by
  rw [step]
  split
  case isTrue => exact h
  case isFalse hreleased =>
    have hin : (s.start .provider c.program c.point).InOrder flow Point.IsRest :=
      Pool.inOrder_start h.inOrder (flow_program c)
    rw [Pool.start] at hin ⊢
    by_cases hdone : (s.thread .provider).rest.IsDone
    · rw [if_pos hdone] at hin ⊢
      obtain ⟨φ, hφ⟩ := h.follows
      have hidle : (s.thread .provider).account = .idle :=
        (h.inOrder.of_isDone hdone).resolve_right fun hend ↦ hreleased (h.released hend)
      have hne : Party.channelThread 1 ≠ .provider := by simp
      refine ⟨hin, ⟨φ, hφ.handles, ?_, ?_, hφ.uses⟩, fun hpoint ↦ ?_⟩
      · simp only [Function.update_self]
        refine admits_call (hidle ▸ hφ.admits) ?_
        rintro rfl
        rw [← hφ.handles]
        exact horderly hdone
      · simpa only [Function.update_of_ne hne] using hφ.thread
      · simp only [Function.update_self] at hpoint
        rcases c with ⟨_ | _ | _ | _ | _⟩ | _ <;> cases hpoint
    · rwa [if_neg hdone]

/-- **A step** that the run does not have to leave out. -/
theorem inv_step (h : s.Inv) {a : Step} (horderly : s.Orderly a) : (s.step a).Inv := by
  cases a with
  | call c => exact inv_call h horderly
  | act i ok =>
    cases i with
    | provider => exact inv_provider h horderly
    | channelThread g => exact inv_channelThread h horderly

theorem sound_of_inv (h : s.Inv) : s.Sound := by
  obtain ⟨φ, hφ⟩ := h.follows
  exact Provider.sound_of_phase hφ.handles hφ.uses

/-- **A thread cannot come to its end**: a member is no handle then. -/
theorem not_sound_of_end (h : s.Inv) {g : ℕ} (hruns : g ∈ s.shared.running)
    (hend : (s.thread (.channelThread g)).rest.next? = some (.assignThread .null)) (ok : Bool) :
    ¬ (s.step (.act (.channelThread g) ok)).Sound := by
  obtain ⟨φ, hφ⟩ := h.follows
  have hstep : (s.step (.act (.channelThread g) ok)).shared =
      { s.shared with thread := .null } := by
    have hparty : (Party.channelThread g).Runs s.shared := hruns
    rw [step, if_pos hparty]
    cases hrest : (s.thread (.channelThread g)).rest with
    | ret x | raise x =>
      rw [hrest] at hend
      cases hend
    | call a k =>
      rw [hrest] at hend
      obtain rfl := Option.some.inj hend
      rw [Pool.act_call hrest]
      rfl
  intro hsound
  rw [Sound, hstep] at hsound
  have hclosed : ¬ φ.handles.isOpen .null := by
    cases φ <;> decide
  rcases hsound.member .thread with hinvalid | hopen
  · cases hinvalid
  · rw [← hφ.handles] at hclosed
    exact hclosed hopen

end Step

/-! ## Every state of a run -/

/-- **The handles are sound** in every state of a run that leaves those steps out. -/
theorem always_sound {run : List Step} (h : Each step Orderly init run) :
    Always step Sound init run := by
  have hinv : Always step Inv init run :=
    always_of_each Inv (fun _ _ h horderly ↦ inv_step h horderly) inv_init h
  exact hinv.mono fun _ ↦ sound_of_inv

/-- `SetUsageScenario` gives the provider a channel. -/
def logonRun : List Step :=
  .call (.setUsageScenario .logon) :: List.replicate 13 (.act .provider true)

/-- The thread serves the pipe and comes to its end. -/
def servedRun : List Step := logonRun ++ List.replicate 7 (.act (.channelThread 1) true)

/-- The provider is destroyed when someone has connected to the pipe. -/
def destroyedRun : List Step :=
  logonRun ++ (.act (.channelThread 1) true :: .call .destroy ::
    List.replicate 14 (.act .provider true))

/-- Nothing fails, and the handle of the thread is lost. -/
theorem not_always_sound : ¬ Always step Sound init servedRun := by
  rw [always_iff_prefixes]
  intro h
  have hsound : (servedRun.foldl step init).Sound := h servedRun (List.prefix_refl _)
  have hthread : (servedRun.foldl step init).shared.member .thread = .null := rfl
  rcases hsound.member .thread with hinvalid | hopen
  · rw [hthread] at hinvalid
    cases hinvalid
  · cases hopen

theorem always_sound_destroyedRun : Always step Sound init destroyedRun ∧
    (destroyedRun.foldl step init).shared.channel = .deleted := by
  refine ⟨always_sound ?_, rfl⟩
  refine ⟨trivial, trivial, trivial, trivial, trivial, trivial, ⟨rfl, fun _ ↦ rfl⟩, trivial, rfl,
    trivial, trivial, trivial, trivial, trivial, fun _ ↦ trivial, fun _ _ ↦ rfl, ?_⟩
  exact ⟨trivial, trivial, trivial, trivial, trivial, trivial, trivial, trivial, trivial, trivial,
    trivial, trivial, trivial, trivial, trivial⟩

end Process

end GuestAgent.OVirtProvider
