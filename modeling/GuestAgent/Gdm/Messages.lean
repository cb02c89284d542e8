import GuestAgent.Library.Transition
import GuestAgent.Python.Object

/-!
# The messages of the greeter extension

Messages of PAM are shown one after the other, each for a while that depends on its length.  The
extension keeps those that wait in a queue.  `dequeue_message` shows the next one and starts a timer
that calls it again, and once nothing is left it forgets the timer and tells the greeter so.
`queue_message` calls it itself if no timer is running, and `reset` throws everything away.

The function is the callback of the timer it starts: when it returns the old timer is gone, and the
new one is what `message_timeout_id` is about.  `Inv` ties the identifier, the timers and the queue
to what a run has queued since its last reset; `always_consistent` is what follows for every run.

Telling the greeter is the last thing `dequeue_message` does.  What the greeter calls while it is
told comes after it, and in a run it is a later event.
-/

set_option autoImplicit false

namespace GuestAgent.Gdm

open Transition

/-! ## The queue and its timer -/

/-- `GdmServiceMessageType`. -/
inductive MessageType where
  | info | problem
  deriving DecidableEq, Repr

structure QueuedMessage where
  text : Text
  type : MessageType
  deriving DecidableEq, Repr

/-- A timer of `g_timeout_add`, with `dequeue_message` for its callback. -/
structure Timer where
  id : ℕ
  interval : ℕ
  deriving DecidableEq, Repr

/-- The identifiers `g_timeout_add` gives, call by call. -/
structure TimeoutIds where
  id : ℕ → ℕ
  id_ne_zero : ∀ n, id n ≠ 0

/-- Those of GLib, as long as they do not wrap around. -/
instance : Inhabited TimeoutIds := ⟨⟨Nat.succ, Nat.succ_ne_zero⟩⟩

/-- A `GdmOVirtCredExtension`, as far as messages go, and the timers it has started. -/
structure MessageQueue where
  messageQueue : List QueuedMessage
  messageTimeoutId : ℕ
  /-- The text of `message_label`. -/
  label : Text
  /-- The timers that are running. -/
  timers : List Timer
  /-- How often `g_timeout_add` was called. -/
  started : ℕ
  beeps : ℕ
  /-- The message being displayed.  Nothing reads this or what follows. -/
  shown : Option QueuedMessage
  /-- The messages displayed since the last reset. -/
  displayed : List QueuedMessage
  /-- How often `message_queue_empty` was emitted. -/
  emitted : ℕ
  deriving DecidableEq, Repr

namespace MessageQueue

/-- The extension when it has been created. -/
def init : MessageQueue where
  messageQueue := []
  messageTimeoutId := 0
  label := []
  timers := []
  started := 0
  beeps := 0
  shown := none
  displayed := []
  emitted := 0

def setMessage (s : MessageQueue) (message : Text) : MessageQueue := { s with label := message }

/-- `g_source_remove`. -/
def sourceRemove (s : MessageQueue) (id : ℕ) : MessageQueue :=
  { s with timers := s.timers.eraseP (·.id = id) }

def purgeMessageQueue (s : MessageQueue) : MessageQueue :=
  let s := if s.messageTimeoutId ≠ 0 then
      { s.sourceRemove s.messageTimeoutId with messageTimeoutId := 0 }
    else s
  { s with messageQueue := [] }

/-- The milliseconds a text is displayed for. -/
def duration (text : Text) : ℕ := max 400 (min (text.length / 66 * 1000) 3000)

def needsBeep : MessageType → Bool
  | .info => false
  | .problem => true

variable (ids : TimeoutIds)

/-- What `dequeue_message` does with the message it has taken off the queue. -/
def display (s : MessageQueue) (message : QueuedMessage) : MessageQueue :=
  let s := s.setMessage message.text
  let id := ids.id s.started
  { s with
    messageTimeoutId := id
    timers := s.timers ++ [⟨id, duration message.text⟩]
    started := s.started + 1
    beeps := if needsBeep message.type then s.beeps + 1 else s.beeps
    shown := some message
    displayed := s.displayed ++ [message] }

/-- What it does if the queue is empty. -/
def emitMessageQueueEmpty (s : MessageQueue) : MessageQueue :=
  { s with messageTimeoutId := 0, emitted := s.emitted + 1 }

/-- `dequeue_message`, with what it returns. -/
def dequeueMessage (s : MessageQueue) : Bool × MessageQueue :=
  match s.messageQueue with
  | message :: rest => (false, display ids { s with messageQueue := rest } message)
  | [] => (false, s.emitMessageQueueEmpty)

/-- `gdm_ovirtcred_extension_queue_message`. -/
def queueMessage (s : MessageQueue) (type : MessageType) (text : Text) : MessageQueue :=
  let s := { s with messageQueue := s.messageQueue ++ [⟨text, type⟩] }
  if s.messageTimeoutId = 0 then (s.dequeueMessage ids).2 else s

/-- `gdm_ovirtcred_extension_reset`. -/
def reset (s : MessageQueue) : MessageQueue :=
  { (s.setMessage []).purgeMessageQueue with shown := none, displayed := [] }

/-- The time of the `n`-th timer is over.  It stays if its callback returns `TRUE`. -/
def expire (s : MessageQueue) (n : ℕ) : MessageQueue :=
  match s.timers[n]? with
  | none => s
  | some timer =>
    let r := dequeueMessage ids { s with timers := s.timers.eraseIdx n, shown := none }
    if r.1 then { r.2 with timers := timer :: r.2.timers } else r.2

/-- `gdm_ovirtcred_extension_has_queued_messages`. -/
def hasQueuedMessages (s : MessageQueue) : Bool :=
  if s.messageTimeoutId ≠ 0 then true
  else if s.messageQueue ≠ [] then true
  else false

end MessageQueue

/-- What happens next. -/
inductive MessageEvent where
  | queueMessage (type : MessageType) (text : Text)
  | expire (n : ℕ)
  | reset
  deriving DecidableEq, Repr

namespace MessageQueue

variable (ids : TimeoutIds)

def step (s : MessageQueue) : MessageEvent → MessageQueue
  | .queueMessage type text => s.queueMessage ids type text
  | .expire n => s.expire ids n
  | .reset => s.reset

end MessageQueue

/-- What has been queued since the last reset, after one more event. -/
def MessageEvent.queue (queued : List QueuedMessage) : MessageEvent → List QueuedMessage
  | .queueMessage type text => queued ++ [⟨text, type⟩]
  | .expire _ => queued
  | .reset => []

/-- The messages a run has queued since its last reset. -/
def queuedSince (events : List MessageEvent) : List QueuedMessage :=
  events.foldl MessageEvent.queue []

namespace MessageQueue

variable (ids : TimeoutIds)

/-! ## What the extension keeps to -/

/-- The identifier, the timers, the queue and what was displayed go together with what was queued
since the last reset. -/
structure Consistent (queued : List QueuedMessage) (s : MessageQueue) : Prop where
  timeoutId : s.messageTimeoutId ≠ 0 ↔ s.timers.length = 1
  timers : s.timers.length ≤ 1
  timer_of_queue : s.messageQueue ≠ [] → s.timers ≠ []
  /-- Everything queued has been displayed, and its time is over. -/
  hasQueued : s.hasQueuedMessages = false ↔ s.displayed = queued ∧ s.shown = none
  /-- The label shows the message displayed last. -/
  label : ∀ message, s.shown = some message →
    s.label = message.text ∧ s.displayed.getLast? = some message
  /-- Nothing is lost. -/
  kept : s.displayed ++ s.messageQueue = queued
  displayed : s.displayed <+: queued
  emitted : ∀ e, (s.step ids e).emitted ≠ s.emitted → (s.step ids e).displayed = e.queue queued

/-- No timer is running, and everything was displayed; or the timer is that of the message
displayed, and what is left waits. -/
inductive Inv (queued : List QueuedMessage) (s : MessageQueue) : Prop
  | idle (displayed : s.displayed = queued) (queue : s.messageQueue = [])
      (id : s.messageTimeoutId = 0) (timers : s.timers = []) (shown : s.shown = none)
  | displaying (kept : s.displayed ++ s.messageQueue = queued) (message : QueuedMessage)
      (shown : s.shown = some message) (label : s.label = message.text)
      (last : s.displayed.getLast? = some message) (id : s.messageTimeoutId ≠ 0)
      (timers : s.timers = [⟨s.messageTimeoutId, duration message.text⟩])

section Steps

variable {ids} {s : MessageQueue} {queued : List QueuedMessage}

theorem dequeueMessage_fst : (s.dequeueMessage ids).1 = false := by
  rw [dequeueMessage]
  split <;> rfl

/-- `dequeue_message`, where no timer is left and the time of the message displayed is over. -/
theorem inv_dequeueMessage (h : s.displayed ++ s.messageQueue = queued) (htimers : s.timers = [])
    (hshown : s.shown = none) : (s.dequeueMessage ids).2.Inv queued := by
  rw [dequeueMessage]
  split
  case h_1 message rest hqueue =>
    have hkept : s.displayed ++ [message] ++ rest = queued := by
      rw [List.append_assoc, List.singleton_append, ← hqueue, h]
    refine .displaying hkept message rfl rfl List.getLast?_concat (ids.id_ne_zero _) ?_
    show s.timers ++ [_] = [_]
    rw [htimers]
    rfl
  case h_2 hqueue =>
    have hdisplayed : s.displayed = queued := by rw [← h, hqueue, List.append_nil]
    exact .idle hdisplayed hqueue rfl htimers hshown

/-- The greeter is told where nothing waits. -/
theorem displayed_of_emitted (h : s.displayed ++ s.messageQueue = queued)
    (hemitted : (s.dequeueMessage ids).2.emitted ≠ s.emitted) :
    (s.dequeueMessage ids).2.displayed = queued := by
  rw [dequeueMessage] at hemitted ⊢
  split at hemitted
  case h_1 => exact absurd rfl hemitted
  case h_2 hqueue =>
    rw [hqueue, List.append_nil] at h
    exact h

theorem Inv.kept (hs : s.Inv queued) : s.displayed ++ s.messageQueue = queued := by
  cases hs with
  | idle displayed queue => rw [queue, List.append_nil, displayed]
  | displaying kept => exact kept

/-- Another message waits. -/
theorem Inv.push (hs : s.Inv queued) (message : QueuedMessage) :
    s.displayed ++ (s.messageQueue ++ [message]) = queued ++ [message] := by
  rw [← hs.kept, List.append_assoc]

theorem Inv.queueMessage (hs : s.Inv queued) (type : MessageType) (text : Text) :
    (s.queueMessage ids type text).Inv (queued ++ [⟨text, type⟩]) := by
  have hpush := hs.push ⟨text, type⟩
  rw [MessageQueue.queueMessage]
  cases hs with
  | idle displayed queue id timers shown =>
    rw [if_pos id]
    exact inv_dequeueMessage hpush timers shown
  | displaying kept message shown label last id timers =>
    rw [if_neg id]
    exact .displaying hpush message shown label last id timers

/-- There is only one timer, so that is the one. -/
theorem Inv.eraseIdx_timers (hs : s.Inv queued) {n : ℕ} {timer : Timer}
    (htimer : s.timers[n]? = some timer) : s.timers.eraseIdx n = [] := by
  obtain ⟨hlt, -⟩ := List.getElem?_eq_some_iff.mp htimer
  cases hs with
  | idle displayed queue id timers shown =>
    rw [timers] at hlt
    exact absurd hlt (Nat.not_lt_zero n)
  | displaying kept message shown label last id timers =>
    rw [timers, List.length_singleton, Nat.lt_one_iff] at hlt
    rw [timers, hlt]
    rfl

theorem Inv.expire (hs : s.Inv queued) (n : ℕ) : (s.expire ids n).Inv queued := by
  rw [MessageQueue.expire]
  split
  case h_1 => exact hs
  case h_2 timer htimer =>
    simp only [dequeueMessage_fst, Bool.false_eq_true, if_false]
    exact inv_dequeueMessage hs.kept (hs.eraseIdx_timers htimer) rfl

/-- The timer is removed. -/
theorem Inv.purge (hs : s.Inv queued) (message : Text) :
    (s.setMessage message).purgeMessageQueue.messageTimeoutId = 0 ∧
      (s.setMessage message).purgeMessageQueue.timers = [] := by
  rw [purgeMessageQueue]
  cases hs with
  | idle displayed queue id timers shown => simp [setMessage, id, timers]
  | displaying kept message shown label last id timers =>
    simp [setMessage, sourceRemove, id, timers]

theorem Inv.reset (hs : s.Inv queued) : s.reset.Inv [] := by
  obtain ⟨hid, htimers⟩ := hs.purge []
  exact .idle rfl rfl hid htimers rfl

theorem Inv.step (hs : s.Inv queued) (e : MessageEvent) : (s.step ids e).Inv (e.queue queued) := by
  cases e with
  | queueMessage type text => exact hs.queueMessage type text
  | expire n => exact hs.expire n
  | reset => exact hs.reset

theorem emitted_purgeMessageQueue : s.purgeMessageQueue.emitted = s.emitted := by
  rw [purgeMessageQueue]
  split <;> rfl

/-- A step that tells the greeter so leaves nothing to be displayed. -/
theorem Inv.displayed_step (hs : s.Inv queued) {e : MessageEvent}
    (hemitted : (s.step ids e).emitted ≠ s.emitted) :
    (s.step ids e).displayed = e.queue queued := by
  cases e with
  | queueMessage type text =>
    rw [MessageQueue.step, MessageQueue.queueMessage] at hemitted ⊢
    dsimp only at hemitted ⊢
    split_ifs at hemitted ⊢
    · exact displayed_of_emitted (hs.push ⟨text, type⟩) hemitted
    · exact absurd rfl hemitted
  | expire n =>
    rw [MessageQueue.step, MessageQueue.expire] at hemitted ⊢
    split at hemitted
    case h_1 => exact absurd rfl hemitted
    case h_2 timer htimer =>
      simp only [dequeueMessage_fst, Bool.false_eq_true, if_false] at hemitted ⊢
      exact displayed_of_emitted hs.kept hemitted
  | reset => exact absurd emitted_purgeMessageQueue hemitted

theorem Inv.hasQueuedMessages_iff (hs : s.Inv queued) :
    s.hasQueuedMessages = false ↔ s.displayed = queued ∧ s.shown = none := by
  cases hs with
  | idle displayed queue id timers shown => simp [hasQueuedMessages, id, queue, displayed, shown]
  | displaying kept message shown label last id timers => simp [hasQueuedMessages, id, shown]

theorem Inv.consistent (hs : s.Inv queued) : s.Consistent ids queued where
  timeoutId := by
    cases hs with
    | idle displayed queue id timers shown => simp [id, timers]
    | displaying kept message shown label last id timers => simp [id, timers]
  timers := by
    cases hs with
    | idle displayed queue id timers shown => simp [timers]
    | displaying kept message shown label last id timers => simp [timers]
  timer_of_queue h := by
    cases hs with
    | idle displayed queue id timers shown => exact absurd queue h
    | displaying kept message shown label last id timers => simp [timers]
  hasQueued := hs.hasQueuedMessages_iff
  label message h := by
    cases hs with
    | idle displayed queue id timers shown => exact absurd (shown.symm.trans h) nofun
    | displaying kept message' shown label last id timers =>
      rw [← Option.some.inj (shown.symm.trans h)]
      exact ⟨label, last⟩
  kept := hs.kept
  displayed := ⟨s.messageQueue, hs.kept⟩
  emitted _ := hs.displayed_step

end Steps

/-! ## Every run -/

theorem inv_init : init.Inv [] := .idle rfl rfl rfl rfl rfl

/-- A run leads from one state of the invariant to another. -/
theorem inv_foldl {s : MessageQueue} {queued : List QueuedMessage} (hs : s.Inv queued)
    (events : List MessageEvent) :
    (events.foldl (step ids) s).Inv (events.foldl MessageEvent.queue queued) := by
  induction events generalizing s queued with
  | nil => exact hs
  | cons e events ih => exact ih (hs.step e)

/-- **The extension keeps its messages in order**: after every run of messages that are queued,
timers that expire and resets, whichever identifiers the timers get. -/
theorem always_consistent (events : List MessageEvent) :
    (events.foldl (step ids) init).Consistent ids (queuedSince events) :=
  (inv_foldl ids inv_init events).consistent

end MessageQueue

end GuestAgent.Gdm
