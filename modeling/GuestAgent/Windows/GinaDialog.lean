import GuestAgent.Library.Transition
import GuestAgent.Python.ByteString

/-!
# The dialog of the GINA and its listener

The GINA shows a dialog and starts a thread that listens at the pipe.  Once it has read a message,
the thread posts the user name and the password to the dialog, waits for a second, and posts the OK
button.  The dialog's procedure starts a listener when the dialog is made, and again at the first
message after an OK, as the login seems to have failed then.  There is to be one listener only, so
it kills the one there is, whatever that is at.

Here the procedure runs against the threads it has started, in any interleaving, and handles one
message to its end before the next.  MSGINA's own procedure, which it calls first, is not known: it
changes the user name and the password at any message, or does not, as the run has it.

`submitted_run` says that what a listener submits was filled in with what it has read, if its
strings were posted, and was changed since at most.  `listener_run` says that one listener at most
is alive, and that no pipe is left open, where `CreateNamedPipe` and the store of its handle are one
step.  `always_closedOnce_iff` says when no handle of a pipe is closed twice: as long as no listener
is killed between `CloseHandle` and the assignment after it.  `always_hears_iff` says when the
dialog never goes deaf, and with it what makes it so: a thread that cannot be created, a listener
that fails while no OK is on its way, be it only to post its own, and one that ends where it is not
to be started again.
-/

set_option autoImplicit false

namespace GuestAgent.GinaDlg

open Transition

/-! ## The source -/

/-- The call of `ThreadFunc` that is next. -/
inductive Stage where
  | createNamedPipe
  | connectNamedPipe
  | readFile
  | flushFileBuffers
  | disconnectNamedPipe
  /-- `CloseHandle`, after an error or not. -/
  | closeHandle (failed : Bool)
  /-- `hPipe = NULL`. -/
  | clearPipe (failed : Bool)
  /-- The strings are copied and converted. -/
  | convert
  | postStrings
  | sleep
  | postOk
  /-- It has returned, or was terminated. -/
  | ended
  deriving DecidableEq, Repr

/-- A thread that runs `ThreadFunc`. -/
structure Listener where
  hwndDlg : ℕ
  stage : Stage
  chRecBuf : Bytes
  /-- Whether the strings were posted. -/
  bRet : Bool
  deriving DecidableEq, Repr

/-- A message that is posted to a dialog. -/
inductive Msg where
  /-- `WM_USER + 5`, with the strings of a message from the pipe. -/
  | strings (message : Bytes)
  /-- `WM_COMMAND` with `IDOK`: the user's, or that of a listener, with what it has read and whether
  its strings were posted. -/
  | ok (listener : Option (Bytes × Bool))
  | other
  deriving DecidableEq, Repr

/-- What the user name and the password in a dialog are. -/
inductive Fields where
  /-- No listener has filled them in. -/
  | original
  | received (message : Bytes)
  /-- They were filled in with that, and the user or MSGINA's procedure has changed them since. -/
  | changed (message : Bytes)
  /-- They were to be filled in with that, and `SetDlgItemText` has failed. -/
  | unset (message : Bytes)
  deriving DecidableEq, Repr

namespace Fields

/-- The user or MSGINA's procedure changes them. -/
def change : Fields → Fields
  | .received message => .changed message
  | x => x

/-- The message of a listener that was handled last. -/
def last : Fields → Option Bytes
  | .original => none
  | .received message | .changed message | .unset message => some message

@[simp] theorem last_change (x : Fields) : x.change.last = x.last := by
  cases x <;> rfl

theorem last_eq_some_iff {x : Fields} {message : Bytes} :
    x.last = some message ↔ x = .received message ∨ x = .changed message ∨ x = .unset message := by
  cases x <;> simp [last]

end Fields

/-- The OK of a listener is handled. -/
structure Submission where
  /-- What the listener has read. -/
  message : Bytes
  /-- Whether its strings were posted. -/
  posted : Bool
  /-- What is in the fields. -/
  fields : Fields
  deriving DecidableEq, Repr

/-- The GINA. -/
structure State where
  /-- `m_bRestartCredentialsListener`. -/
  restart : Bool
  /-- `l_bAttemptedToLogin`. -/
  attempted : Bool
  hPipe : Option ℕ
  hThread : Option ℕ
  /-- The threads that were started. -/
  listeners : List Listener
  /-- How many pipes were created. -/
  pipes : ℕ
  /-- The handles that `CloseHandle` was called with. -/
  closed : List ℕ
  /-- How many dialogs were made, and which of them are shown. -/
  dialogs : ℕ
  isOpen : ℕ → Bool
  fields : ℕ → Fields
  /-- What was posted, and to which dialog. -/
  queue : List (ℕ × Msg)
  /-- The dialog a listener was started for last. -/
  listening : Option ℕ
  /-- The OKs of listeners that were handled. -/
  submitted : List Submission

namespace State

variable (s : State)

/-- Thread `i` goes on to a stage. -/
def goto (i : ℕ) (stage : Stage) : State :=
  { s with listeners := s.listeners.modify i fun l ↦ { l with stage } }

/-- `CloseHandle(hPipe)`. -/
def closePipe : State := { s with closed := s.closed ++ s.hPipe.toList }

/-- `PostMessage`: there has to be the dialog, and it may fail even so. -/
def post (hwnd : ℕ) (m : Msg) (ok : Bool) : State :=
  if s.isOpen hwnd && ok then { s with queue := s.queue ++ [(hwnd, m)] } else s

/-- A dialog is made. -/
def newDialog : State :=
  { s with
    dialogs := s.dialogs + 1
    isOpen := Function.update s.isOpen s.dialogs true
    fields := Function.update s.fields s.dialogs .original }

/-- `KillListenerThread`. -/
def killListenerThread : State :=
  match s.hThread with
  | some i => { (s.goto i .ended).closePipe with hPipe := none, hThread := none }
  | none => s

/-- `CreateThread` of a listener. -/
def createThread (hwndDlg : ℕ) (created : Bool) : State :=
  if created then
    { s with
      listeners := s.listeners ++ [⟨hwndDlg, .createNamedPipe, [], false⟩]
      hThread := some s.listeners.length
      listening := some hwndDlg }
  else { s with hThread := none, listening := some hwndDlg }

/-- `RestartListenerThread`, which is also what `WM_INITDIALOG` does. -/
def restartListenerThread (hwndDlg : ℕ) (created : Bool) : State :=
  s.killListenerThread.createThread hwndDlg created

/-- The start of `LogonDlgProc`. -/
def checkAttempted (hwndDlg : ℕ) (created : Bool) : State :=
  if s.attempted && s.restart then
    { s with attempted := false }.restartListenerThread hwndDlg created
  else s

/-- `LogonDlgProc` on `WM_INITDIALOG`, after the original procedure.  The first of the two flags is
for the thread that is created because of an earlier OK. -/
def initDialog (hwndDlg : ℕ) (restarted created : Bool) : State :=
  (s.checkAttempted hwndDlg restarted).restartListenerThread hwndDlg created

/-- `LogonDlgProc` on other messages, after the original procedure.  The second flag is whether both
calls of `SetDlgItemText` succeed. -/
def logonDlgProc (hwndDlg : ℕ) (m : Msg) (restarted set : Bool) : State :=
  let s := s.checkAttempted hwndDlg restarted
  match m with
  | .strings message =>
    { s with fields := Function.update s.fields hwndDlg (if set then .received message
        else .unset message) }
  | .ok _ => { s with attempted := true }
  | .other => s

/-- The original procedure is called.  What is in the fields is what it finds there on OK, and at
any message it may change them. -/
def wlxSASDlgProc (hwndDlg : ℕ) (m : Msg) (changes : Bool) : State :=
  { s with
    submitted := match m with
      | .ok (some (message, posted)) => s.submitted ++ [⟨message, posted, s.fields hwndDlg⟩]
      | _ => s.submitted
    fields := if changes then Function.update s.fields hwndDlg (s.fields hwndDlg).change
      else s.fields }

/-- The next call of thread `i`, a listener in the state `l`, which succeeds or not, and what it
reads. -/
def threadFunc (i : ℕ) (l : Listener) (ok : Bool) (message : Bytes) : State :=
  match l.stage with
  | .createNamedPipe =>
    if ok then { s.goto i .connectNamedPipe with hPipe := some s.pipes, pipes := s.pipes + 1 }
    else { s.goto i .ended with hPipe := none }
  | .connectNamedPipe => s.goto i (if ok then .readFile else .closeHandle true)
  | .readFile =>
    if ok then { s with
      listeners := s.listeners.modify i fun l ↦
        { l with stage := .flushFileBuffers, chRecBuf := message } }
    else s.goto i (.closeHandle true)
  | .flushFileBuffers => s.goto i .disconnectNamedPipe
  | .disconnectNamedPipe => s.goto i (.closeHandle false)
  | .closeHandle failed => s.closePipe.goto i (.clearPipe failed)
  | .clearPipe failed => { s.goto i (if failed then .ended else .convert) with hPipe := none }
  | .convert => s.goto i .postStrings
  | .postStrings => { s.post l.hwndDlg (.strings l.chRecBuf) ok with
      listeners := s.listeners.modify i fun l ↦
        { l with stage := .sleep, bRet := s.isOpen l.hwndDlg && ok } }
  | .sleep => s.goto i .postOk
  | .postOk => (s.post l.hwndDlg (.ok (some (l.chRecBuf, l.bRet))) ok).goto i .ended
  | .ended => s

end State

/-- What happens. -/
inductive Event where
  /-- A dialog is made. -/
  | init (restarted created : Bool)
  /-- The first message of the queue is handled, unless its dialog is gone.  MSGINA's procedure
  changes the fields or not. -/
  | dispatch (changes restarted set : Bool)
  /-- The user clicks OK, or does something else. -/
  | click (hwnd : ℕ) (ok : Bool)
  /-- The user changes the fields. -/
  | type (hwnd : ℕ)
  /-- A dialog ends. -/
  | endDialog (hwnd : ℕ)
  /-- A thread performs its next call. -/
  | thread (i : ℕ) (ok : Bool) (message : Bytes)
  deriving DecidableEq, Repr

def step (s : State) : Event → State
  | .init restarted created =>
    s.newDialog.initDialog s.dialogs restarted created
  | .dispatch changes restarted set =>
    match s.queue with
    | [] => s
    | (hwnd, m) :: queue =>
      let s := { s with queue }
      if s.isOpen hwnd then (s.wlxSASDlgProc hwnd m changes).logonDlgProc hwnd m restarted set
      else s
  | .click hwnd ok => s.post hwnd (if ok then .ok none else .other) true
  | .type hwnd => { s with fields := Function.update s.fields hwnd (s.fields hwnd).change }
  | .endDialog hwnd => { s with isOpen := Function.update s.isOpen hwnd false }
  | .thread i ok message =>
    match s.listeners[i]? with
    | some l => s.threadFunc i l ok message
    | none => s

/-- The GINA was loaded. -/
def init (restart : Bool) : State where
  restart
  attempted := false
  hPipe := none
  hThread := none
  listeners := []
  pipes := 0
  closed := []
  dialogs := 0
  isOpen _ := false
  fields _ := .original
  queue := []
  listening := none
  submitted := []

/-! ## One listener, and its pipe -/

namespace State

/-- What a listener at that stage has of the pipe. -/
def Holds (s : State) : Stage → Prop
  | .connectNamedPipe | .readFile | .flushFileBuffers | .disconnectNamedPipe | .closeHandle _ =>
    ∃ h, s.hPipe = some h ∧ h ∉ s.closed
  | .clearPipe _ => ∃ h, s.hPipe = some h ∧ h ∈ s.closed
  | _ => s.hPipe = none

/-- What holds in every run. -/
structure Inv (s : State) : Prop where
  /-- One listener at most is alive: the one that is known. -/
  alone : ∀ i l, s.listeners[i]? = some l → l.stage ≠ .ended → s.hThread = some i
  thread : ∀ i, s.hThread = some i →
    ∃ l, s.listeners[i]? = some l ∧ s.listening = some l.hwndDlg ∧ s.Holds l.stage
  noThread : s.hThread = none → s.hPipe = none
  hPipe_lt : ∀ h, s.hPipe = some h → h < s.pipes
  closed_lt : ∀ h ∈ s.closed, h < s.pipes
  /-- A pipe is closed, or it is the listener's. -/
  kept : ∀ h < s.pipes, h ∈ s.closed ∨ s.hPipe = some h

section Inv

variable {s t : State} {i : ℕ} {l : Listener} {f : Listener → Listener}

theorem getElem?_modify_self (hl : s.listeners[i]? = some l) :
    (s.listeners.modify i f)[i]? = some (f l) := by
  rw [List.getElem?_modify_eq, hl]
  rfl

/-- A listener that is alive goes on. -/
theorem Inv.advance (h : Inv s) (hl : s.listeners[i]? = some l) (hlive : l.stage ≠ .ended)
    (hwnd : (f l).hwndDlg = l.hwndDlg) (hlisteners : t.listeners = s.listeners.modify i f)
    (hthread : t.hThread = s.hThread) (hlistening : t.listening = s.listening)
    (hholds : t.Holds (f l).stage) (hPipe_lt : ∀ h, t.hPipe = some h → h < t.pipes)
    (closed_lt : ∀ h ∈ t.closed, h < t.pipes)
    (kept : ∀ h < t.pipes, h ∈ t.closed ∨ t.hPipe = some h) : Inv t := by
  have hi := h.alone i l hl hlive
  refine ⟨?_, ?_, ?_, hPipe_lt, closed_lt, kept⟩
  · intro j y hy hyl
    rw [hlisteners, List.getElem?_modify] at hy
    obtain ⟨x, hx, rfl⟩ := Option.map_eq_some_iff.mp hy
    rw [hthread]
    by_cases hij : i = j
    · rw [← hij, hi]
    · rw [if_neg hij] at hyl
      exact h.alone j x hx hyl
  · intro j hj
    obtain rfl : i = j := Option.some.inj (hi.symm.trans (hthread.symm.trans hj))
    obtain ⟨x, hx, hlist, -⟩ := h.thread i hi
    obtain rfl := Option.some.inj (hl.symm.trans hx)
    refine ⟨f l, ?_, by rw [hlistening, hlist, hwnd], hholds⟩
    rw [hlisteners, getElem?_modify_self hl]
  · intro hnone
    cases hi.symm.trans (hthread.symm.trans hnone)

/-- Killing the listener closes its pipe. -/
theorem killListenerThread_eq (h : Inv s) : s.killListenerThread = { s with
    listeners := s.killListenerThread.listeners
    closed := s.closed ++ s.hPipe.toList
    hPipe := none
    hThread := none } := by
  rw [killListenerThread]
  cases hthread : s.hThread with
  | some i => rfl
  | none =>
    have hnone := h.noThread hthread
    obtain ⟨restart, attempted, hPipe, hThread⟩ := s
    obtain rfl : hThread = none := hthread
    obtain rfl : hPipe = none := hnone
    dsimp only
    rw [Option.toList_none, List.append_nil]

/-- It leaves none alive. -/
theorem ended_of_kill (h : Inv s) {j : ℕ} {y : Listener}
    (hy : s.killListenerThread.listeners[j]? = some y) :
    y.stage = .ended ∧ ∃ l, s.listeners[j]? = some l ∧ y.hwndDlg = l.hwndDlg := by
  rw [killListenerThread] at hy
  cases hthread : s.hThread with
  | some i =>
    rw [hthread] at hy
    change (s.listeners.modify i fun l ↦ { l with stage := .ended })[j]? = some y at hy
    rw [List.getElem?_modify] at hy
    obtain ⟨x, hx, rfl⟩ := Option.map_eq_some_iff.mp hy
    by_cases hij : i = j
    · rw [if_pos hij]
      exact ⟨rfl, x, hx, rfl⟩
    · rw [if_neg hij]
      refine ⟨?_, x, hx, rfl⟩
      by_contra hlive
      exact hij (Option.some.inj (hthread.symm.trans (h.alone j x hx hlive)))
  | none =>
    rw [hthread] at hy
    refine ⟨?_, y, hy, rfl⟩
    by_contra hlive
    cases hthread.symm.trans (h.alone j y hy hlive)

/-- **The listener is started again.** -/
theorem Inv.restart (h : Inv s) (hwndDlg : ℕ) (created : Bool) :
    Inv (s.restartListenerThread hwndDlg created) := by
  have hended {j : ℕ} {y : Listener} (hy : s.killListenerThread.listeners[j]? = some y) :
      y.stage = .ended := (ended_of_kill h hy).1
  have hlt : ∀ h ∈ s.closed ++ s.hPipe.toList, h < s.pipes := by
    intro p hp
    rcases List.mem_append.mp hp with hp | hp
    · exact h.closed_lt p hp
    · exact h.hPipe_lt p (Option.mem_toList.mp hp)
  have hkept : ∀ p < s.pipes, p ∈ s.closed ++ s.hPipe.toList := by
    intro p hp
    rcases h.kept p hp with hp | hp
    · exact List.mem_append_left _ hp
    · exact List.mem_append_right _ (Option.mem_toList.mpr hp)
  rw [restartListenerThread, killListenerThread_eq h, createThread]
  split
  · refine ⟨?_, ?_, nofun, nofun, hlt, fun p hp ↦ .inl (hkept p hp)⟩
    · intro j y hy hlive
      rcases lt_or_ge j s.killListenerThread.listeners.length with hj | hj
      · rw [List.getElem?_append_left hj] at hy
        exact absurd (hended hy) hlive
      · have hlen := (List.getElem?_eq_some_iff.mp hy).1
        rw [List.length_append, List.length_singleton] at hlen
        exact congrArg some (show _ = j from le_antisymm hj (Nat.lt_succ_iff.mp hlen))
    · intro j hj
      obtain rfl := Option.some.inj hj
      exact ⟨⟨hwndDlg, .createNamedPipe, [], false⟩, List.getElem?_concat_length, rfl, rfl⟩
  · exact ⟨fun j y hy hlive ↦ absurd (hended hy) hlive, nofun, fun _ ↦ rfl, nofun, hlt,
      fun p hp ↦ .inl (hkept p hp)⟩

theorem Inv.goto (h : Inv s) (hl : s.listeners[i]? = some l) {stage : Stage}
    (hlive : l.stage ≠ .ended) (hholds : s.Holds stage) : Inv (s.goto i stage) :=
  h.advance hl hlive rfl rfl rfl rfl hholds h.hPipe_lt h.closed_lt h.kept

theorem post_eq (s : State) (hwnd : ℕ) (m : Msg) (ok : Bool) :
    s.post hwnd m ok = { s with queue := (s.post hwnd m ok).queue } := by
  rw [State.post]
  split <;> rfl

theorem Inv.post (h : Inv s) (hwnd : ℕ) (m : Msg) (ok : Bool) : Inv (s.post hwnd m ok) := by
  rw [post_eq]
  exact { h with }

/-- **A call of a listener.** -/
theorem Inv.threadFunc (h : Inv s) (hl : s.listeners[i]? = some l) (ok : Bool) (message : Bytes) :
    Inv (s.threadFunc i l ok message) := by
  have hholds (hlive : l.stage ≠ .ended) : s.Holds l.stage := by
    obtain ⟨x, hx, -, hholds⟩ := h.thread i (h.alone i l hl hlive)
    obtain rfl := Option.some.inj (hl.symm.trans hx)
    exact hholds
  have hkept (hnone : s.hPipe = none) : ∀ p < s.pipes, p ∈ s.closed := by
    intro p hp
    refine (h.kept p hp).resolve_right ?_
    rw [hnone]
    nofun
  rw [State.threadFunc]
  split <;> rename_i hstage <;> rw [hstage] at hholds
  · -- `CreateNamedPipe`: the handle is a new one
    have hnone : s.hPipe = none := hholds nofun
    have hlive : l.stage ≠ .ended := by rw [hstage]; nofun
    split
    · refine h.advance hl hlive rfl rfl rfl rfl ?_ ?_ ?_ ?_
      · exact ⟨s.pipes, rfl, fun hmem ↦ absurd (h.closed_lt _ hmem) (lt_irrefl _)⟩
      · intro p hp
        obtain rfl := Option.some.inj hp
        exact Nat.lt_succ_self _
      · exact fun p hp ↦ (h.closed_lt p hp).trans (Nat.lt_succ_self _)
      · intro p hp
        rcases Nat.lt_succ_iff_lt_or_eq.mp hp with hlt | rfl
        · exact .inl (hkept hnone p hlt)
        · exact .inr rfl
    · exact h.advance hl hlive rfl rfl rfl rfl rfl nofun h.closed_lt
        fun p hp ↦ .inl (hkept hnone p hp)
  · cases ok <;> exact h.goto hl (by rw [hstage]; nofun) (hholds nofun)
  · split
    · exact h.advance hl (by rw [hstage]; nofun) rfl rfl rfl rfl (hholds nofun) h.hPipe_lt
        h.closed_lt h.kept
    · exact h.goto hl (by rw [hstage]; nofun) (hholds nofun)
  · exact h.goto hl (by rw [hstage]; nofun) (hholds nofun)
  · exact h.goto hl (by rw [hstage]; nofun) (hholds nofun)
  · -- `CloseHandle`
    obtain ⟨p, hp, -⟩ := hholds nofun
    refine h.advance (f := fun l ↦ { l with stage := .clearPipe _ }) hl (by rw [hstage]; nofun) rfl
      rfl rfl rfl ⟨p, hp, ?_⟩ h.hPipe_lt ?_ ?_
    · exact List.mem_append_right _ (Option.mem_toList.mpr hp)
    · intro q hq
      rcases List.mem_append.mp hq with hq | hq
      · exact h.closed_lt q hq
      · exact h.hPipe_lt q (Option.mem_toList.mp hq)
    · intro q hq
      exact (h.kept q hq).imp_left (List.mem_append_left _)
  · -- `hPipe = NULL`
    rename_i failed
    obtain ⟨p, hp, hmem⟩ := hholds nofun
    refine h.advance hl (by rw [hstage]; nofun) rfl rfl rfl rfl ?_ nofun h.closed_lt ?_
    · cases failed <;> rfl
    · intro q hq
      rcases h.kept q hq with hq | hq
      · exact .inl hq
      · obtain rfl := Option.some.inj (hp.symm.trans hq)
        exact .inl hmem
  · exact h.goto hl (by rw [hstage]; nofun) (hholds nofun)
  · rw [post_eq]
    exact h.advance hl (by rw [hstage]; nofun) rfl rfl rfl rfl (hholds nofun) h.hPipe_lt
      h.closed_lt h.kept
  · exact h.goto hl (by rw [hstage]; nofun) (hholds nofun)
  · have hpost := h.post l.hwndDlg (.ok (some (l.chRecBuf, l.bRet))) ok
    rw [post_eq] at hpost ⊢
    exact hpost.goto hl (by rw [hstage]; nofun) (hholds nofun)
  · exact h

theorem Inv.checkAttempted (h : Inv s) (hwndDlg : ℕ) (created : Bool) :
    Inv (s.checkAttempted hwndDlg created) := by
  have hcleared : Inv { s with attempted := false } := { h with }
  rw [State.checkAttempted]
  split
  · exact hcleared.restart hwndDlg created
  · exact h

theorem Inv.logonDlgProc (h : Inv s) (hwndDlg : ℕ) (m : Msg) (restarted set : Bool) :
    Inv (s.logonDlgProc hwndDlg m restarted set) := by
  have hcheck := h.checkAttempted hwndDlg restarted
  cases m with
  | strings message => exact { hcheck with }
  | ok listener => exact { hcheck with }
  | other => exact hcheck

/-- **The invariant**: one step. -/
theorem inv_step (h : Inv s) (e : Event) : Inv (step s e) := by
  cases e with
  | init restarted created =>
    have hnew : Inv s.newDialog := { h with }
    exact (hnew.checkAttempted s.dialogs restarted).restart s.dialogs created
  | dispatch changes restarted set =>
    rw [step]
    split
    · exact h
    · rename_i hwnd m queue hqueue
      have hrest : Inv { s with queue } := { h with }
      have hsas : Inv (State.wlxSASDlgProc { s with queue } hwnd m changes) := { hrest with }
      dsimp only
      split
      · exact hsas.logonDlgProc hwnd m restarted set
      · exact hrest
  | click hwnd ok => exact h.post hwnd _ true
  | type hwnd => exact { h with }
  | endDialog hwnd => exact { h with }
  | thread i ok message =>
    rw [step]
    split
    · rename_i l hl
      exact h.threadFunc hl ok message
    · exact h

theorem inv_init (restart : Bool) : Inv (init restart) :=
  ⟨nofun, nofun, fun _ ↦ rfl, nofun, nofun, nofun⟩

end Inv

/-! ## What is submitted -/

/-- Where the messages of a queue are handled, and `last` are those the fields were to be filled in
with, every OK of a listener that has posted its strings finds that they were the last. -/
def Fits (isOpen : ℕ → Bool) : (ℕ → Option Bytes) → List (ℕ × Msg) → Prop
  | _, [] => True
  | last, (hwnd, .strings message) :: queue =>
    Fits isOpen (Function.update last hwnd (some message)) queue
  | last, (hwnd, .ok (some (message, posted))) :: queue =>
    (isOpen hwnd = true → posted = true → last hwnd = some message) ∧ Fits isOpen last queue
  | last, _ :: queue => Fits isOpen last queue

/-- The last ones once the messages of a queue were handled. -/
def after : (ℕ → Option Bytes) → List (ℕ × Msg) → ℕ → Option Bytes
  | last, [] => last
  | last, (hwnd, .strings message) :: queue =>
    after (Function.update last hwnd (some message)) queue
  | last, _ :: queue => after last queue

/-- What the fields of a dialog were to be filled in with last. -/
def last (s : State) (hwnd : ℕ) : Option Bytes := (s.fields hwnd).last

/-- The listener has posted the strings, and will post the OK. -/
def Submits : Stage → Prop
  | .sleep | .postOk => True
  | _ => False

structure Fitting (s : State) : Prop where
  queue : Fits s.isOpen s.last s.queue
  listener : ∀ l ∈ s.listeners, Submits l.stage →
    Fits s.isOpen s.last (s.queue ++ [(l.hwndDlg, .ok (some (l.chRecBuf, l.bRet)))])
  submitted : ∀ x ∈ s.submitted, x.posted = true → x.fields.last = some x.message
  /-- There is nothing for the dialogs to come. -/
  open_lt : ∀ d, s.isOpen d = true → d < s.dialogs
  queue_lt : ∀ x ∈ s.queue, x.1 < s.dialogs
  hwnd_lt : ∀ l ∈ s.listeners, l.hwndDlg < s.dialogs

section Fits

variable {o o' : ℕ → Bool} {f f' : ℕ → Option Bytes} {q r : List (ℕ × Msg)}

/-- It does not matter what becomes of dialogs that are closed, and of those there is no message
for. -/
theorem Fits.mono (h : Fits o f q)
    (hf : ∀ d, (∃ m, (d, m) ∈ q) → o' d = true → o d = true ∧ f' d = f d) : Fits o' f' q := by
  induction q generalizing f f' with
  | nil => trivial
  | cons x q ih =>
    obtain ⟨hwnd, m⟩ := x
    have hrest : ∀ d, (∃ m, (d, m) ∈ q) → o' d = true → o d = true ∧ f' d = f d := by
      rintro d ⟨m, hm⟩
      exact hf d ⟨m, List.mem_cons_of_mem _ hm⟩
    have hhead := hf hwnd ⟨m, List.mem_cons_self⟩
    cases m with
    | strings message =>
      refine ih h fun d hd hopen ↦ ?_
      obtain ⟨hopen', hd'⟩ := hrest d hd hopen
      by_cases hdh : d = hwnd
      · rw [hdh, Function.update_self, Function.update_self]
        exact ⟨hdh ▸ hopen', rfl⟩
      · rw [Function.update_of_ne hdh, Function.update_of_ne hdh]
        exact ⟨hopen', hd'⟩
    | ok listener =>
      cases listener with
      | none => exact ih h hrest
      | some x =>
        refine ⟨fun hopen hposted ↦ ?_, ih h.2 hrest⟩
        obtain ⟨hopen', hd'⟩ := hhead hopen
        rw [hd']
        exact h.1 hopen' hposted
    | other => exact ih h hrest

theorem fits_append : Fits o f (q ++ r) ↔ Fits o f q ∧ Fits o (after f q) r := by
  induction q generalizing f with
  | nil => exact (and_iff_right trivial).symm
  | cons x q ih =>
    obtain ⟨hwnd, m⟩ := x
    cases m with
    | strings message => exact ih
    | ok listener =>
      cases listener with
      | none => exact ih
      | some message => exact (and_congr_right fun _ ↦ ih).trans and_assoc.symm
    | other => exact ih

/-- A message for a dialog that is closed makes no difference. -/
theorem Fits.tail {hwnd : ℕ} {m : Msg} (h : Fits o f ((hwnd, m) :: q)) (hclosed : o hwnd ≠ true) :
    Fits o f q := by
  cases m with
  | strings message =>
    refine Fits.mono h fun d _ hopen ↦ ⟨hopen, ?_⟩
    have hd : d ≠ hwnd := by
      rintro rfl
      exact hclosed hopen
    exact (Function.update_of_ne hd ..).symm
  | ok listener =>
    cases listener with
    | none => exact h
    | some message => exact h.2
  | other => exact h

/-- The user's messages change nothing. -/
theorem Fits.insert {hwnd : ℕ} {m : Msg} (hm : m = .ok none ∨ m = .other)
    (h : Fits o f (q ++ r)) : Fits o f (q ++ (hwnd, m) :: r) := by
  rw [fits_append] at h ⊢
  rcases hm with rfl | rfl <;> exact h

/-- A listener posts the strings, and then the OK. -/
theorem Fits.post (h : Fits o f q) (hwnd : ℕ) (message : Bytes) (posted : Bool) :
    Fits o f (q ++ [(hwnd, .strings message), (hwnd, .ok (some (message, posted)))]) :=
  fits_append.mpr ⟨h, fun _ _ ↦ Function.update_self .., trivial⟩

end Fits

section Fitting

variable {s t : State} {i : ℕ} {l : Listener}

/-- Starting a listener again leaves everything else alone. -/
theorem restart_eq (s : State) (hwndDlg : ℕ) (created : Bool) :
    s.restartListenerThread hwndDlg created = { s with
      listeners := (s.restartListenerThread hwndDlg created).listeners
      closed := (s.restartListenerThread hwndDlg created).closed
      hPipe := (s.restartListenerThread hwndDlg created).hPipe
      hThread := (s.restartListenerThread hwndDlg created).hThread
      listening := some hwndDlg } := by
  rw [restartListenerThread, killListenerThread, createThread]
  cases s.hThread <;> cases created <;> rfl

/-- The listeners after that are ended, or the new one. -/
theorem mem_restart (h : Inv s) {hwndDlg : ℕ} {created : Bool} {y : Listener}
    (hy : y ∈ (s.restartListenerThread hwndDlg created).listeners) :
    y.stage = .ended ∧ (∃ l ∈ s.listeners, y.hwndDlg = l.hwndDlg) ∨
      y = ⟨hwndDlg, .createNamedPipe, [], false⟩ := by
  have hkilled (hmem : y ∈ s.killListenerThread.listeners) :
      y.stage = .ended ∧ ∃ l ∈ s.listeners, y.hwndDlg = l.hwndDlg := by
    obtain ⟨j, hj⟩ := List.mem_iff_getElem?.mp hmem
    obtain ⟨hended, l, hl, hwnd⟩ := ended_of_kill h hj
    exact ⟨hended, l, List.mem_of_getElem? hl, hwnd⟩
  rw [restartListenerThread, createThread] at hy
  split at hy
  · rcases List.mem_append.mp hy with hmem | hmem
    · exact .inl (hkilled hmem)
    · exact .inr (List.mem_singleton.mp hmem)
  · exact .inl (hkilled hy)

theorem Fitting.restart (h : Fitting s) (hinv : Inv s) {hwndDlg : ℕ} (hlt : hwndDlg < s.dialogs)
    (created : Bool) : Fitting (s.restartListenerThread hwndDlg created) := by
  have hlisteners (y : Listener)
      (hy : y ∈ (s.restartListenerThread hwndDlg created).listeners) := mem_restart hinv hy
  rw [restart_eq]
  refine ⟨h.queue, ?_, h.submitted, h.open_lt, h.queue_lt, ?_⟩
  · intro y hy hsubmits
    rcases hlisteners y hy with ⟨hended, -⟩ | rfl
    · rw [hended] at hsubmits
      exact hsubmits.elim
    · exact hsubmits.elim
  · intro y hy
    rcases hlisteners y hy with ⟨-, l, hl, hwnd⟩ | rfl
    · rw [hwnd]
      exact h.hwnd_lt l hl
    · exact hlt

theorem checkAttempted_eq (s : State) (hwndDlg : ℕ) (created : Bool) :
    s.checkAttempted hwndDlg created = { s with
      attempted := s.attempted && !s.restart
      listeners := (s.checkAttempted hwndDlg created).listeners
      closed := (s.checkAttempted hwndDlg created).closed
      hPipe := (s.checkAttempted hwndDlg created).hPipe
      hThread := (s.checkAttempted hwndDlg created).hThread
      listening := (s.checkAttempted hwndDlg created).listening } := by
  have hrestart := restart_eq { s with attempted := false } hwndDlg created
  rw [checkAttempted]
  split
  · rename_i hagain
    rw [hrestart]
    rw [Bool.and_eq_true] at hagain
    rw [hagain.1, hagain.2]
    rfl
  · rename_i hagain
    have hattempted : (s.attempted && !s.restart) = s.attempted := by
      cases hr : s.restart with
      | false => exact Bool.and_true _
      | true =>
        rw [hr, Bool.and_true, Bool.not_eq_true] at hagain
        rw [hagain]
        rfl
    rw [hattempted]

/-- The listeners afterwards are those before, or they have nothing to submit. -/
theorem mem_checkAttempted (h : Inv s) {hwndDlg : ℕ} {created : Bool} {y : Listener}
    (hy : y ∈ (s.checkAttempted hwndDlg created).listeners) :
    y ∈ s.listeners ∨ ¬ Submits y.stage ∧
      (y.hwndDlg = hwndDlg ∨ ∃ l ∈ s.listeners, y.hwndDlg = l.hwndDlg) := by
  rw [checkAttempted] at hy
  split at hy
  · have hcleared : Inv { s with attempted := false } := { h with }
    rcases mem_restart hcleared hy with ⟨hended, hl⟩ | rfl
    · rw [hended]
      exact .inr ⟨id, .inr hl⟩
    · exact .inr ⟨id, .inl rfl⟩
  · exact .inl hy

theorem Fitting.checkAttempted (h : Fitting s) (hinv : Inv s) {hwndDlg : ℕ}
    (hlt : hwndDlg < s.dialogs) (created : Bool) :
    Fitting (s.checkAttempted hwndDlg created) := by
  have hcleared : Inv { s with attempted := false } := { hinv with }
  have hfitting : Fitting { s with attempted := false } := { h with }
  rw [State.checkAttempted]
  split
  · exact hfitting.restart hcleared hlt created
  · exact h

/-- What happens to the dialogs themselves. -/
theorem Fitting.dialogs (h : Fitting s) (hqueue : t.queue = s.queue)
    (hlisteners : t.listeners = s.listeners) (hsubmitted : t.submitted = s.submitted)
    (hle : s.dialogs ≤ t.dialogs) (hopen : ∀ d, t.isOpen d = true → d < t.dialogs)
    (hf : ∀ d < s.dialogs, t.isOpen d = true → s.isOpen d = true ∧ t.last d = s.last d) :
    Fitting t := by
  refine ⟨?_, ?_, by rw [hsubmitted]; exact h.submitted, hopen, ?_, ?_⟩
  · rw [hqueue]
    refine h.queue.mono ?_
    rintro d ⟨m, hm⟩
    exact hf d (h.queue_lt _ hm)
  · intro l hl hsubmits
    rw [hlisteners] at hl
    rw [hqueue]
    refine (h.listener l hl hsubmits).mono ?_
    rintro d ⟨m, hm⟩
    refine hf d ?_
    rcases List.mem_append.mp hm with hm | hm
    · exact h.queue_lt _ hm
    · rw [(Prod.mk.inj (List.mem_singleton.mp hm)).1]
      exact h.hwnd_lt l hl
  · intro x hx
    rw [hqueue] at hx
    exact (h.queue_lt x hx).trans_le hle
  · intro l hl
    rw [hlisteners] at hl
    exact (h.hwnd_lt l hl).trans_le hle

/-- One listener goes on, and the others are as they were. -/
theorem mem_modify {f : Listener → Listener} (hl : s.listeners[i]? = some l) {y : Listener}
    (hy : y ∈ s.listeners.modify i f) : y = f l ∨ ∃ j, j ≠ i ∧ s.listeners[j]? = some y := by
  obtain ⟨j, hj⟩ := List.mem_iff_getElem?.mp hy
  rw [List.getElem?_modify] at hj
  obtain ⟨x, hx, rfl⟩ := Option.map_eq_some_iff.mp hj
  by_cases hij : i = j
  · obtain rfl := Option.some.inj (hl.symm.trans (hij ▸ hx))
    rw [if_pos hij]
    exact .inl rfl
  · rw [if_neg hij]
    exact .inr ⟨j, Ne.symm hij, hx⟩

/-- A listener goes on, and posts nothing. -/
theorem Fitting.advance (h : Fitting s) (hl : s.listeners[i]? = some l) {f : Listener → Listener}
    (hwnd : (f l).hwndDlg = l.hwndDlg) (hlisteners : t.listeners = s.listeners.modify i f)
    (hsubmits : Submits (f l).stage →
      Submits l.stage ∧ (f l).chRecBuf = l.chRecBuf ∧ (f l).bRet = l.bRet)
    (ht : t = { s with
      listeners := t.listeners, closed := t.closed, hPipe := t.hPipe, pipes := t.pipes }) :
    Fitting t := by
  have hmem (y : Listener) (hy : y ∈ t.listeners) : y = f l ∨ y ∈ s.listeners := by
    rw [hlisteners] at hy
    refine (mem_modify hl hy).imp_right ?_
    rintro ⟨j, -, hj⟩
    exact List.mem_of_getElem? hj
  have hlmem := List.mem_of_getElem? hl
  rw [ht]
  refine ⟨h.queue, ?_, h.submitted, h.open_lt, h.queue_lt, ?_⟩
  · intro y hy hys
    rcases hmem y hy with rfl | hy
    · obtain ⟨hls, hbuf, hret⟩ := hsubmits hys
      rw [hwnd, hbuf, hret]
      exact h.listener l hlmem hls
    · exact h.listener y hy hys
  · intro y hy
    rcases hmem y hy with rfl | hy
    · rw [hwnd]
      exact h.hwnd_lt l hlmem
    · exact h.hwnd_lt y hy

theorem mem_queue_post {hwnd : ℕ} {m : Msg} {ok : Bool} {x : ℕ × Msg}
    (hx : x ∈ (s.post hwnd m ok).queue) : x ∈ s.queue ∨ x = (hwnd, m) := by
  rw [State.post] at hx
  split at hx
  · exact (List.mem_append.mp hx).imp_right List.mem_singleton.mp
  · exact .inl hx

theorem fits_post {hwnd : ℕ} {m : Msg} (ok : Bool) (h : Fitting s)
    (hm : s.isOpen hwnd = true → Fits s.isOpen s.last (s.queue ++ [(hwnd, m)])) :
    Fits s.isOpen s.last (s.post hwnd m ok).queue := by
  rw [State.post]
  split
  · rename_i hposted
    exact hm (Bool.and_eq_true_iff.mp hposted).1
  · exact h.queue

/-- The one listener that is alive posts something and goes on. -/
theorem Fitting.advance_post (h : Fitting s) (hinv : Inv s) (hl : s.listeners[i]? = some l)
    (hlive : l.stage ≠ .ended) {m : Msg} {ok : Bool} {f : Listener → Listener}
    (hwnd : (f l).hwndDlg = l.hwndDlg)
    (hm : s.isOpen l.hwndDlg = true → Fits s.isOpen s.last (s.queue ++ [(l.hwndDlg, m)]))
    (hsubmits : Submits (f l).stage → Fits s.isOpen s.last
      ((s.post l.hwndDlg m ok).queue ++
        [((f l).hwndDlg, .ok (some ((f l).chRecBuf, (f l).bRet)))])) :
    Fitting { s.post l.hwndDlg m ok with listeners := s.listeners.modify i f } := by
  have hqueue := fits_post ok h hm
  have hmem {x : ℕ × Msg} (hx : x ∈ (s.post l.hwndDlg m ok).queue) := mem_queue_post hx
  have hlt := h.hwnd_lt l (List.mem_of_getElem? hl)
  rw [post_eq]
  refine ⟨hqueue, ?_, h.submitted, h.open_lt, ?_, ?_⟩
  · intro y hy hys
    rcases mem_modify hl hy with rfl | ⟨j, hij, hj⟩
    · exact hsubmits hys
    · -- it would be alive, too
      refine absurd (hinv.alone j y hj fun hended ↦ ?_) fun hthread ↦
        hij (Option.some.inj (hthread.symm.trans (hinv.alone i l hl hlive)))
      rw [hended] at hys
      exact hys
  · intro x hx
    rcases hmem hx with hx | rfl
    · exact h.queue_lt x hx
    · exact hlt
  · intro y hy
    rcases mem_modify hl hy with rfl | ⟨j, -, hj⟩
    · rw [hwnd]
      exact hlt
    · exact h.hwnd_lt y (List.mem_of_getElem? hj)

theorem Fitting.threadFunc (h : Fitting s) (hinv : Inv s) (hl : s.listeners[i]? = some l)
    (ok : Bool) (message : Bytes) : Fitting (s.threadFunc i l ok message) := by
  rw [State.threadFunc]
  split <;> rename_i hstage
  · split <;> exact h.advance hl rfl rfl nofun rfl
  · cases ok <;> exact h.advance hl rfl rfl nofun rfl
  · split <;> exact h.advance hl rfl rfl nofun rfl
  · exact h.advance hl rfl rfl nofun rfl
  · exact h.advance hl rfl rfl nofun rfl
  · exact h.advance hl rfl rfl nofun rfl
  · rename_i failed
    cases failed <;> exact h.advance hl rfl rfl nofun rfl
  · exact h.advance hl rfl rfl nofun rfl
  · -- the strings, where they are posted, are to be followed by the OK
    have hpost := h.queue.post l.hwndDlg l.chRecBuf (s.isOpen l.hwndDlg && ok)
    refine h.advance_post hinv hl (by rw [hstage]; nofun) rfl (fun _ ↦ ?_) fun _ ↦ ?_
    · rw [List.append_cons] at hpost
      exact (fits_append.mp hpost).1
    · rw [State.post]
      split
      · rwa [List.append_cons] at hpost
      · rename_i hfailed
        exact fits_append.mpr ⟨h.queue, fun _ hposted ↦ absurd hposted hfailed, trivial⟩
  · exact h.advance hl rfl rfl (fun _ ↦ ⟨by rw [hstage]; trivial, rfl, rfl⟩) rfl
  · have hgoto : (s.post l.hwndDlg (.ok (some (l.chRecBuf, l.bRet))) ok).goto i .ended =
        { s.post l.hwndDlg (.ok (some (l.chRecBuf, l.bRet))) ok with
          listeners := s.listeners.modify i fun l ↦ { l with stage := .ended } } := by
      rw [goto, post_eq]
    rw [hgoto]
    refine h.advance_post hinv hl (by rw [hstage]; nofun) rfl (fun _ ↦ ?_) nofun
    exact h.listener l (List.mem_of_getElem? hl) (by rw [hstage]; trivial)
  · exact h

section Check

variable (s) (hwndDlg : ℕ) (created : Bool)

@[simp] theorem checkAttempted_isOpen : (s.checkAttempted hwndDlg created).isOpen = s.isOpen := by
  rw [checkAttempted_eq]

@[simp] theorem checkAttempted_dialogs :
    (s.checkAttempted hwndDlg created).dialogs = s.dialogs := by rw [checkAttempted_eq]

@[simp] theorem checkAttempted_fields : (s.checkAttempted hwndDlg created).fields = s.fields := by
  rw [checkAttempted_eq]

@[simp] theorem checkAttempted_queue : (s.checkAttempted hwndDlg created).queue = s.queue := by
  rw [checkAttempted_eq]

@[simp] theorem checkAttempted_submitted :
    (s.checkAttempted hwndDlg created).submitted = s.submitted := by rw [checkAttempted_eq]

end Check

/-- MSGINA's procedure changes the fields, and not what they were filled in with. -/
theorem last_wlxSASDlgProc (s : State) (hwndDlg : ℕ) (m : Msg) (changes : Bool) (d : ℕ) :
    (s.wlxSASDlgProc hwndDlg m changes).last d = s.last d := by
  cases changes with
  | false => rfl
  | true =>
    show (Function.update s.fields hwndDlg (s.fields hwndDlg).change d).last = (s.fields d).last
    by_cases hd : d = hwndDlg
    · rw [hd, Function.update_self, Fields.last_change]
    · rw [Function.update_of_ne hd]

/-- The first message is taken off the queue. -/
theorem Fitting.dequeue (h : Fitting s) {hwnd : ℕ} {m : Msg} {queue : List (ℕ × Msg)}
    (hqueue : s.queue = (hwnd, m) :: queue) (htqueue : t.queue = queue)
    (hopen : t.isOpen = s.isOpen) (hdialogs : t.dialogs = s.dialogs)
    (hlisteners : ∀ y ∈ t.listeners, y ∈ s.listeners ∨ ¬ Submits y.stage ∧
      (y.hwndDlg = hwnd ∨ ∃ l ∈ s.listeners, y.hwndDlg = l.hwndDlg))
    (hsubmitted : ∀ x ∈ t.submitted, x.posted = true → x.fields.last = some x.message)
    (hfits : ∀ r, Fits s.isOpen s.last ((hwnd, m) :: r) → Fits s.isOpen t.last r) :
    Fitting t := by
  have hq := h.queue
  have hl := h.listener
  have hlt := h.queue_lt
  rw [hqueue] at hq hl hlt
  refine ⟨?_, ?_, hsubmitted, ?_, ?_, ?_⟩
  · rw [hopen, htqueue]
    exact hfits queue hq
  · intro y hy hsubmits
    rw [hopen, htqueue]
    exact hfits _ (hl y ((hlisteners y hy).resolve_right fun hnot ↦ hnot.1 hsubmits) hsubmits)
  · rw [hopen, hdialogs]
    exact h.open_lt
  · intro x hx
    rw [htqueue] at hx
    rw [hdialogs]
    exact hlt x (List.mem_cons_of_mem _ hx)
  · intro y hy
    rw [hdialogs]
    rcases hlisteners y hy with hy | ⟨-, hy | ⟨l, hl, hy⟩⟩
    · exact h.hwnd_lt y hy
    · rw [hy]
      exact hlt _ List.mem_cons_self
    · rw [hy]
      exact h.hwnd_lt l hl

/-- A message is handled. -/
theorem Fitting.dispatch (h : Fitting s) (hinv : Inv s) {hwnd : ℕ} {m : Msg}
    {queue : List (ℕ × Msg)} (hqueue : s.queue = (hwnd, m) :: queue) (hopen : s.isOpen hwnd = true)
    (changes restarted set : Bool) :
    Fitting (State.logonDlgProc (wlxSASDlgProc { s with queue } hwnd m changes) hwnd m restarted
      set) := by
  set u : State := wlxSASDlgProc { s with queue } hwnd m changes
  have hinv' : Inv u := { hinv with }
  have hlisteners (y : Listener) (hy : y ∈ (u.checkAttempted hwnd restarted).listeners) :
      y ∈ s.listeners ∨ ¬ Submits y.stage ∧
        (y.hwndDlg = hwnd ∨ ∃ l ∈ s.listeners, y.hwndDlg = l.hwndDlg) :=
    mem_checkAttempted hinv' hy
  have hlast : (u.checkAttempted hwnd restarted).last = s.last := by
    funext d
    rw [State.last, checkAttempted_fields]
    exact last_wlxSASDlgProc { s with queue } hwnd m changes d
  cases m with
  | strings message =>
    refine h.dequeue hqueue (checkAttempted_queue ..) (checkAttempted_isOpen ..)
      (checkAttempted_dialogs ..) hlisteners ?_ ?_
    · exact (checkAttempted_submitted u hwnd restarted).symm ▸ h.submitted
    · intro r hr
      have hset : (u.logonDlgProc hwnd (.strings message) restarted set).last =
          Function.update s.last hwnd (some message) := by
        funext d
        rw [← hlast]
        by_cases hd : d = hwnd
        · rw [hd, Function.update_self, State.last, logonDlgProc]
          dsimp only
          rw [Function.update_self]
          cases set <;> rfl
        · rw [Function.update_of_ne hd, State.last, logonDlgProc]
          dsimp only
          rw [Function.update_of_ne hd]
          rfl
      rw [hset]
      exact hr
  | ok listener =>
    cases listener with
    | none =>
      refine h.dequeue hqueue (checkAttempted_queue ..) (checkAttempted_isOpen ..)
        (checkAttempted_dialogs ..) hlisteners ?_ fun r hr ↦ hlast.symm ▸ hr
      exact (checkAttempted_submitted u hwnd restarted).symm ▸ h.submitted
    | some x =>
      -- the fields are what the listener has filled in
      have hshown := h.queue
      rw [hqueue] at hshown
      refine h.dequeue hqueue (checkAttempted_queue ..) (checkAttempted_isOpen ..)
        (checkAttempted_dialogs ..) hlisteners ?_ fun r hr ↦ hlast.symm ▸ hr.2
      rw [logonDlgProc]
      dsimp only
      rw [checkAttempted_submitted]
      intro y hy
      rcases List.mem_append.mp hy with hy | hy
      · exact h.submitted y hy
      · obtain rfl := List.mem_singleton.mp hy
        exact hshown.1 hopen
  | other =>
    refine h.dequeue hqueue (checkAttempted_queue ..) (checkAttempted_isOpen ..)
      (checkAttempted_dialogs ..) hlisteners ?_ fun r hr ↦ hlast.symm ▸ hr
    exact (checkAttempted_submitted u hwnd restarted).symm ▸ h.submitted

/-- **One step.** -/
theorem fitting_step (hinv : Inv s) (h : Fitting s) (e : Event) : Fitting (step s e) := by
  cases e with
  | init restarted created =>
    have hnew : Fitting s.newDialog := by
      refine h.dialogs rfl rfl rfl (Nat.le_succ _) ?_ ?_
      · intro d hd
        by_cases hds : d = s.dialogs
        · rw [hds]
          exact Nat.lt_succ_self _
        · have hd' : s.isOpen d = true := by
            exact (Function.update_of_ne hds ..).symm.trans hd
          exact (h.open_lt d hd').trans (Nat.lt_succ_self _)
      · intro d hd hopen
        have hds : d ≠ s.dialogs := hd.ne
        exact ⟨(Function.update_of_ne hds ..).symm.trans hopen,
          congrArg Fields.last (Function.update_of_ne hds ..)⟩
    have hnewInv : Inv s.newDialog := { hinv with }
    have hlt : s.dialogs < s.newDialog.dialogs := Nat.lt_succ_self _
    refine (hnew.checkAttempted hnewInv hlt restarted).restart
      (hnewInv.checkAttempted s.dialogs restarted) ?_ created
    rw [checkAttempted_eq]
    exact hlt
  | dispatch changes restarted set =>
    rw [step]
    split
    · exact h
    · rename_i hwnd m queue hqueue
      dsimp only
      split
      · rename_i hopen
        exact h.dispatch hinv hqueue hopen changes restarted set
      · rename_i hclosed
        exact h.dequeue hqueue rfl rfl rfl (fun y hy ↦ .inl hy) h.submitted
          fun r hr ↦ hr.tail hclosed
  | click hwnd ok =>
    have hm : (if ok then Msg.ok none else .other) = .ok none ∨
        (if ok then Msg.ok none else .other) = .other := by
      cases ok
      · exact .inr rfl
      · exact .inl rfl
    rw [step, State.post]
    split
    · rename_i hposted
      have hopen : s.isOpen hwnd = true := (Bool.and_eq_true_iff.mp hposted).1
      have hq : Fits s.isOpen s.last (s.queue ++ []) := by
        rw [List.append_nil]
        exact h.queue
      refine ⟨hq.insert hm, ?_, h.submitted, h.open_lt, ?_, h.hwnd_lt⟩
      · intro l hl hsubmits
        show Fits s.isOpen s.last (s.queue ++ [_] ++ [_])
        rw [← List.append_cons]
        exact (h.listener l hl hsubmits).insert hm
      · intro x hx
        rcases List.mem_append.mp hx with hx | hx
        · exact h.queue_lt x hx
        · obtain rfl := List.mem_singleton.mp hx
          exact h.open_lt hwnd hopen
    · exact h
  | type hwnd =>
    refine h.dialogs rfl rfl rfl le_rfl h.open_lt ?_
    intro d _ hopen
    refine ⟨hopen, ?_⟩
    show (Function.update s.fields hwnd (s.fields hwnd).change d).last = (s.fields d).last
    by_cases hd : d = hwnd
    · rw [hd, Function.update_self, Fields.last_change]
    · rw [Function.update_of_ne hd]
  | endDialog hwnd =>
    have hopen (d : ℕ) (hd : Function.update s.isOpen hwnd false d = true) :
        s.isOpen d = true := by
      by_cases hdh : d = hwnd
      · rw [hdh, Function.update_self] at hd
        cases hd
      · rwa [Function.update_of_ne hdh] at hd
    exact h.dialogs rfl rfl rfl le_rfl (fun d hd ↦ h.open_lt d (hopen d hd))
      fun d _ hd ↦ ⟨hopen d hd, rfl⟩
  | thread i ok message =>
    rw [step]
    split
    · rename_i l hl
      exact h.threadFunc hinv hl ok message
    · exact h

theorem fitting_init (restart : Bool) : Fitting (init restart) :=
  ⟨trivial, nofun, nofun, nofun, nofun, nofun⟩

end Fitting

/-! ## Handles that are closed twice -/

/-- No handle was closed twice. -/
def ClosedOnce (s : State) : Prop := ∀ h, s.closed.count h ≤ 1

/-- The listener has closed its pipe, and the handle is still there. -/
def Closing (s : State) : Prop :=
  ∃ (i : ℕ) (l : Listener), s.hThread = some i ∧ s.listeners[i]? = some l ∧
    ∃ failed, l.stage = .clearPipe failed

/-- No listener is killed then. -/
def Unhurried (s : State) : Event → Prop
  | .init _ _ => ¬ s.Closing
  | .dispatch .. => ∀ x queue, s.queue = x :: queue → s.isOpen x.1 = true → s.attempted = true →
    s.restart = true → ¬ s.Closing
  | _ => True

section ClosedOnce

variable {s t : State} {i : ℕ} {l : Listener}

theorem closing_iff (hinv : Inv s) : s.Closing ↔ ∃ h, s.hPipe = some h ∧ h ∈ s.closed := by
  constructor
  · rintro ⟨i, l, hi, hl, failed, hstage⟩
    obtain ⟨x, hx, -, hholds⟩ := hinv.thread i hi
    obtain rfl := Option.some.inj (hl.symm.trans hx)
    rwa [hstage] at hholds
  · rintro ⟨h, hh, hmem⟩
    cases hthread : s.hThread with
    | none => cases hh.symm.trans (hinv.noThread hthread)
    | some i =>
      obtain ⟨l, hl, -, hholds⟩ := hinv.thread i hthread
      refine ⟨i, l, hthread, hl, ?_⟩
      have hnone (hnone : s.hPipe = none) : False := nomatch hh.symm.trans hnone
      have hfresh (hfresh : ∃ h, s.hPipe = some h ∧ h ∉ s.closed) : False := by
        obtain ⟨h', hh', hnot⟩ := hfresh
        obtain rfl := Option.some.inj (hh.symm.trans hh')
        exact hnot hmem
      cases hstage : l.stage with
      | clearPipe failed => exact ⟨failed, rfl⟩
      | createNamedPipe | convert | postStrings | sleep | postOk | ended =>
        rw [hstage] at hholds
        exact (hnone hholds).elim
      | _ =>
        rw [hstage] at hholds
        exact (hfresh hholds).elim

/-- Closing the pipe there is. -/
theorem closedOnce_iff (hinv : Inv s) (h : s.ClosedOnce)
    (ht : t.closed = s.closed ++ s.hPipe.toList) : t.ClosedOnce ↔ ¬ s.Closing := by
  rw [closing_iff hinv, ClosedOnce, ht]
  cases hp : s.hPipe with
  | none =>
    rw [Option.toList_none, List.append_nil]
    exact iff_of_true h fun ⟨p, hp, _⟩ ↦ nomatch hp
  | some p =>
    rw [Option.toList_some]
    constructor
    · rintro hone ⟨q, hq, hmem⟩
      obtain rfl := Option.some.inj hq
      have hcount := hone p
      rw [List.count_append, List.count_singleton_self] at hcount
      have hpos := List.count_pos_iff.mpr hmem
      omega
    · intro hnot q
      rw [List.count_append, List.count_singleton]
      have hone := h q
      by_cases hpq : p = q
      · have hzero : s.closed.count q = 0 := List.count_eq_zero.mpr fun hmem ↦
          hnot ⟨p, rfl, hpq ▸ hmem⟩
        rw [hzero]
        split <;> omega
      · rw [if_neg (fun heq ↦ hpq (beq_iff_eq.mp heq))]
        exact hone

theorem closed_restart (hinv : Inv s) (hwndDlg : ℕ) (created : Bool) :
    (s.restartListenerThread hwndDlg created).closed = s.closed ++ s.hPipe.toList ∧
      (s.restartListenerThread hwndDlg created).hPipe = none := by
  rw [restartListenerThread, killListenerThread_eq hinv, createThread]
  split <;> exact ⟨rfl, rfl⟩

theorem closed_checkAttempted (hinv : Inv s) (hwndDlg : ℕ) (created : Bool) :
    if s.attempted && s.restart then
      (s.checkAttempted hwndDlg created).closed = s.closed ++ s.hPipe.toList ∧
        (s.checkAttempted hwndDlg created).hPipe = none
    else s.checkAttempted hwndDlg created = s := by
  have hcleared : Inv { s with attempted := false } := { hinv with }
  rw [checkAttempted]
  split
  · exact closed_restart hcleared hwndDlg created
  · rfl

/-- A dialog that is made closes the pipe there is once. -/
theorem closed_initDialog (hinv : Inv s) (hwndDlg : ℕ) (restarted created : Bool) :
    (s.initDialog hwndDlg restarted created).closed = s.closed ++ s.hPipe.toList := by
  have hcheck := closed_checkAttempted hinv hwndDlg restarted
  rw [initDialog, (closed_restart (hinv.checkAttempted hwndDlg restarted) hwndDlg created).1]
  split at hcheck
  · rw [hcheck.1, hcheck.2, Option.toList_none, List.append_nil]
  · rw [hcheck]

theorem closed_logonDlgProc (s : State) (hwndDlg : ℕ) (m : Msg) (restarted set : Bool) :
    (s.logonDlgProc hwndDlg m restarted set).closed =
      (s.checkAttempted hwndDlg restarted).closed := by
  cases m <;> rfl

/-- A listener closes its pipe once. -/
theorem closedOnce_threadFunc (hinv : Inv s) (h : s.ClosedOnce) (hl : s.listeners[i]? = some l)
    (ok : Bool) (message : Bytes) : (s.threadFunc i l ok message).ClosedOnce := by
  rw [State.threadFunc]
  split <;> rename_i hstage
  · split <;> exact h
  · exact h
  · split <;> exact h
  · exact h
  · exact h
  · obtain ⟨x, hx, -, hholds⟩ := hinv.thread i (hinv.alone i l hl (by rw [hstage]; nofun))
    obtain rfl := Option.some.inj (hl.symm.trans hx)
    rw [hstage] at hholds
    obtain ⟨p, hp, hnot⟩ := hholds
    refine (closedOnce_iff hinv h rfl).mpr fun hclosing ↦ ?_
    obtain ⟨q, hq, hmem⟩ := (closing_iff hinv).mp hclosing
    obtain rfl := Option.some.inj (hp.symm.trans hq)
    exact hnot hmem
  · exact h
  · exact h
  · rw [post_eq]
    exact h
  · exact h
  · rw [post_eq]
    exact h
  · exact h

/-- **One step**: a handle is closed twice if a listener is killed that has closed it. -/
theorem closedOnce_step_iff (hinv : Inv s) (h : s.ClosedOnce) (e : Event) :
    (step s e).ClosedOnce ↔ s.Unhurried e := by
  cases e with
  | init restarted created =>
    have hnew : Inv s.newDialog := { hinv with }
    exact closedOnce_iff hinv h (closed_initDialog hnew s.dialogs restarted created)
  | dispatch changes restarted set =>
    rw [step]
    cases hqueue : s.queue with
    | nil => exact iff_of_true h fun x queue hx ↦ nomatch hqueue.symm.trans hx
    | cons x queue =>
      obtain ⟨hwnd, m⟩ := x
      dsimp only
      split
      · rename_i hopen
        set u : State := wlxSASDlgProc { s with queue } hwnd m changes
        have hinv' : Inv u := { hinv with }
        have hcheck := closed_checkAttempted hinv' hwnd restarted
        have hmem : s.Unhurried (.dispatch changes restarted set) ↔
            (s.attempted = true → s.restart = true → ¬ s.Closing) := by
          rw [Unhurried, hqueue]
          refine ⟨fun hall ↦ hall (hwnd, m) queue rfl hopen, fun hall x queue' hx _ ↦ hall⟩
        rw [hmem, ClosedOnce, closed_logonDlgProc]
        split at hcheck
        · rename_i hagain
          obtain ⟨hattempted, hrestart⟩ := Bool.and_eq_true_iff.mp hagain
          have hattempted' : s.attempted = true := hattempted
          have hrestart' : s.restart = true := hrestart
          rw [imp_iff_right hattempted', imp_iff_right hrestart']
          exact closedOnce_iff hinv h hcheck.1
        · rename_i hagain
          rw [hcheck]
          refine iff_of_true h fun hattempted hrestart ↦ absurd ?_ hagain
          exact Bool.and_eq_true_iff.mpr ⟨hattempted, hrestart⟩
      · rename_i hclosed
        refine iff_of_true h fun x queue' hx hopen ↦ ?_
        obtain ⟨rfl, -⟩ := List.cons.inj (hqueue.symm.trans hx)
        exact absurd hopen hclosed
  | click hwnd ok =>
    refine iff_of_true ?_ trivial
    rw [step, ClosedOnce, post_eq]
    exact h
  | type hwnd => exact iff_of_true h trivial
  | endDialog hwnd => exact iff_of_true h trivial
  | thread i ok message =>
    refine iff_of_true ?_ trivial
    rw [step]
    split
    · rename_i l hl
      exact closedOnce_threadFunc hinv h hl ok message
    · exact h

end ClosedOnce

/-! ## A dialog that goes deaf -/

/-- A listener that has not failed, and has not come to its end. -/
def Listens : Stage → Prop
  | .closeHandle failed | .clearPipe failed => failed = false
  | .ended => False
  | _ => True

/-- The listener is to be started again for a dialog: there was an OK, or there is one for it. -/
def ToRestart (s : State) (hwnd : ℕ) : Prop :=
  s.restart = true ∧ (s.attempted = true ∨ ∃ listener, (hwnd, .ok listener) ∈ s.queue)

/-- The dialog a listener was started for last has one that listens, or that is to be started
again. -/
def Hears (s : State) : Prop :=
  ∀ d, s.listening = some d → s.isOpen d = true →
    (∃ (i : ℕ) (l : Listener), s.hThread = some i ∧ s.listeners[i]? = some l ∧ Listens l.stage) ∨
      s.ToRestart d

/-- A call fails that makes the listener return, or leaves the OK out. -/
def Fails (ok : Bool) : Stage → Prop
  | .createNamedPipe | .connectNamedPipe | .readFile | .postOk => ok = false
  | _ => False

/-- The threads that are needed are created, no listener fails unless the next one is to be started
anyway, and none comes to its end where that one is not. -/
def Attentive (s : State) : Event → Prop
  | .init _ created => created = true
  | .dispatch _ restarted _ => ∀ hwnd m queue, s.queue = (hwnd, m) :: queue → s.isOpen hwnd = true →
    s.attempted = true → s.restart = true →
      restarted = true ∨ (∃ listener, m = .ok listener) ∨ ∃ listener, (hwnd, .ok listener) ∈ queue
  | .thread i ok _ => ∀ l, s.listeners[i]? = some l → s.isOpen l.hwndDlg = true →
    (Fails ok l.stage → s.ToRestart l.hwndDlg) ∧ (l.stage = .postOk → s.restart = true)
  | _ => True

section Hears

variable {s t : State} {i : ℕ} {l : Listener}

/-- What a call of the listener makes of it. -/
theorem hears_goto_iff (hinv : Inv s) (hl : s.listeners[i]? = some l) (hlive : l.stage ≠ .ended)
    {f : Listener → Listener} (hlisteners : t.listeners = s.listeners.modify i f)
    (hthread : t.hThread = s.hThread) (hlistening : t.listening = s.listening)
    (hopen : t.isOpen = s.isOpen) :
    t.Hears ↔ (s.isOpen l.hwndDlg = true → Listens (f l).stage ∨ t.ToRestart l.hwndDlg) := by
  have hi := hinv.alone i l hl hlive
  obtain ⟨x, hx, hlist, -⟩ := hinv.thread i hi
  obtain rfl := Option.some.inj (hl.symm.trans hx)
  have hget : t.listeners[i]? = some (f l) := by rw [hlisteners, getElem?_modify_self hl]
  constructor
  · intro h hopen'
    refine (h l.hwndDlg (hlistening.trans hlist) (by rwa [hopen])).imp_left ?_
    rintro ⟨j, y, hj, hy, hlistens⟩
    obtain rfl : i = j := Option.some.inj (hi.symm.trans (hthread.symm.trans hj))
    obtain rfl := Option.some.inj (hget.symm.trans hy)
    exact hlistens
  · intro h d hd hopen'
    obtain rfl : l.hwndDlg = d := Option.some.inj (hlist.symm.trans (hlistening.symm.trans hd))
    rw [hopen] at hopen'
    exact (h hopen').imp_left fun hlistens ↦ ⟨i, f l, hthread.trans hi, hget, hlistens⟩

/-- After the listener was started again. -/
theorem hears_restart_iff (s : State) (hwndDlg : ℕ) (created : Bool) :
    (s.restartListenerThread hwndDlg created).Hears ↔
      (s.isOpen hwndDlg = true → created = true ∨ s.ToRestart hwndDlg) := by
  have hlisten : (∃ (i : ℕ) (l : Listener),
      (s.restartListenerThread hwndDlg created).hThread = some i ∧
      (s.restartListenerThread hwndDlg created).listeners[i]? = some l ∧ Listens l.stage) ↔
        created = true := by
    cases created with
    | false =>
      refine iff_of_false ?_ nofun
      rintro ⟨i, l, hi, -⟩
      cases hi
    | true =>
      refine iff_of_true ?_ rfl
      exact ⟨_, ⟨hwndDlg, .createNamedPipe, [], false⟩, rfl, List.getElem?_concat_length, trivial⟩
  rw [Hears]
  rw [restart_eq] at hlisten ⊢
  constructor
  · intro h hopen
    exact (h hwndDlg rfl hopen).imp_left hlisten.mp
  · intro h d hd hopen
    obtain rfl := Option.some.inj hd
    exact (h hopen).imp_left hlisten.mpr

/-- A call of a thread. -/
theorem hears_threadFunc_iff (hinv : Inv s) (h : s.Hears) (hl : s.listeners[i]? = some l)
    (ok : Bool) (message : Bytes) :
    (s.threadFunc i l ok message).Hears ↔ (s.isOpen l.hwndDlg = true →
      (Fails ok l.stage → s.ToRestart l.hwndDlg) ∧ (l.stage = .postOk → s.restart = true)) := by
  have hnow (hlive : l.stage ≠ .ended) (hopen : s.isOpen l.hwndDlg = true) :
      Listens l.stage ∨ s.ToRestart l.hwndDlg :=
    (hears_goto_iff (f := id) hinv hl hlive (List.modify_id ..).symm rfl rfl rfl).mp h hopen
  have hgoto (hlive : l.stage ≠ .ended) {f : Listener → Listener} {t : State}
      (ht : t = { s with
        listeners := s.listeners.modify i f, hPipe := t.hPipe, pipes := t.pipes,
        closed := t.closed, queue := t.queue }) :=
    hears_goto_iff (t := t) (f := f) hinv hl hlive (by rw [ht]) (by rw [ht]) (by rw [ht])
      (by rw [ht])
  have hgoes {p : Prop} (hp : p) {stage : Stage} (hstage : l.stage = stage)
      (hfails : ¬ Fails ok stage) (hne : stage ≠ .postOk) :
      p ↔ (Fails ok l.stage → s.ToRestart l.hwndDlg) ∧ (l.stage = .postOk → s.restart = true) := by
    rw [hstage]
    exact iff_of_true hp ⟨fun hf ↦ absurd hf hfails, fun heq ↦ absurd heq hne⟩
  have hfailed {stage : Stage} (hstage : l.stage = stage) (hfails : Fails ok stage)
      (hne : stage ≠ .postOk) : s.ToRestart l.hwndDlg ↔
        (Fails ok l.stage → s.ToRestart l.hwndDlg) ∧
          (l.stage = .postOk → s.restart = true) := by
    rw [hstage]
    exact ⟨fun hr ↦ ⟨fun _ ↦ hr, fun heq ↦ absurd heq hne⟩, fun hall ↦ hall.1 hfails⟩
  rw [State.threadFunc]
  split <;> rename_i hstage
  · have hlive : l.stage ≠ .ended := by rw [hstage]; nofun
    cases ok with
    | true =>
      refine (hgoto hlive rfl).trans (forall_congr' fun _ ↦ ?_)
      exact hgoes (.inl trivial) hstage nofun nofun
    | false =>
      refine (hgoto hlive rfl).trans (forall_congr' fun _ ↦ ?_)
      exact (or_iff_right id).trans (hfailed hstage rfl nofun)
  · have hlive : l.stage ≠ .ended := by rw [hstage]; nofun
    cases ok with
    | true =>
      refine (hgoto hlive rfl).trans (forall_congr' fun _ ↦ ?_)
      exact hgoes (.inl trivial) hstage nofun nofun
    | false =>
      refine (hgoto hlive rfl).trans (forall_congr' fun _ ↦ ?_)
      exact (or_iff_right nofun).trans (hfailed hstage rfl nofun)
  · have hlive : l.stage ≠ .ended := by rw [hstage]; nofun
    cases ok with
    | true =>
      refine (hgoto hlive rfl).trans (forall_congr' fun _ ↦ ?_)
      exact hgoes (.inl trivial) hstage nofun nofun
    | false =>
      refine (hgoto hlive rfl).trans (forall_congr' fun _ ↦ ?_)
      exact (or_iff_right nofun).trans (hfailed hstage rfl nofun)
  · refine (hgoto (by rw [hstage]; nofun) rfl).trans (forall_congr' fun _ ↦ ?_)
    exact hgoes (.inl trivial) hstage id nofun
  · refine (hgoto (by rw [hstage]; nofun) rfl).trans (forall_congr' fun _ ↦ ?_)
    exact hgoes (.inl rfl) hstage id nofun
  · -- whether it has failed is as before
    have hlive : l.stage ≠ .ended := by rw [hstage]; nofun
    rw [hstage] at hnow
    refine (hgoto hlive rfl).trans (forall_congr' fun hopen ↦ ?_)
    exact hgoes (hnow nofun hopen) hstage id nofun
  · rename_i failed
    have hlive : l.stage ≠ .ended := by rw [hstage]; nofun
    rw [hstage] at hnow
    refine (hgoto hlive rfl).trans (forall_congr' fun hopen ↦ ?_)
    refine hgoes ?_ hstage id nofun
    cases failed with
    | true => exact .inr ((hnow nofun hopen).resolve_left nofun)
    | false => exact .inl trivial
  · refine (hgoto (by rw [hstage]; nofun) rfl).trans (forall_congr' fun _ ↦ ?_)
    exact hgoes (.inl trivial) hstage id nofun
  · rw [post_eq]
    refine (hgoto (by rw [hstage]; nofun) rfl).trans (forall_congr' fun _ ↦ ?_)
    exact hgoes (.inl trivial) hstage id nofun
  · refine (hgoto (by rw [hstage]; nofun) rfl).trans (forall_congr' fun _ ↦ ?_)
    exact hgoes (.inl trivial) hstage id nofun
  · set m : Msg := .ok (some (l.chRecBuf, l.bRet))
    have hpost := post_eq s l.hwndDlg m ok
    rw [hpost]
    refine (hgoto (by rw [hstage]; nofun) rfl).trans (forall_congr' fun hopen ↦ ?_)
    rw [hstage]
    refine (or_iff_right id).trans ?_
    cases ok with
    | true =>
      -- its OK is on the way
      have hmem : (l.hwndDlg, m) ∈ (s.post l.hwndDlg m true).queue := by
        rw [State.post, hopen]
        exact List.mem_append_right _ List.mem_cons_self
      refine ⟨fun hr ↦ ⟨nofun, fun _ ↦ hr.1⟩, fun hall ↦ ?_⟩
      exact ⟨hall.2 rfl, .inr ⟨_, hmem⟩⟩
    | false =>
      have hqueue : (s.post l.hwndDlg m false).queue = s.queue := by
        rw [State.post, Bool.and_false]
        rfl
      rw [hqueue]
      exact ⟨fun hr ↦ ⟨fun _ ↦ hr, fun _ ↦ hr.1⟩, fun hall ↦ hall.1 rfl⟩
  · refine iff_of_true h fun _ ↦ ?_
    rw [hstage]
    exact ⟨fun hfails ↦ hfails.elim, nofun⟩

/-- A message that starts no listener. -/
theorem Hears.dequeue (h : s.Hears) {hwnd : ℕ} {m : Msg} {queue : List (ℕ × Msg)}
    (hqueue : s.queue = (hwnd, m) :: queue)
    (ht : t = { s with
      attempted := t.attempted, fields := t.fields, queue, submitted := t.submitted })
    (hattempted : s.attempted = true → s.restart = true → t.attempted = true)
    (hok : s.isOpen hwnd = true → ∀ listener, m = .ok listener → t.attempted = true) :
    t.Hears := by
  rw [ht]
  intro d hd hopen
  refine (h d hd hopen).imp_right ?_
  rintro ⟨hrestart, hagain⟩
  refine ⟨hrestart, ?_⟩
  rcases hagain with hagain | ⟨listener, hmem⟩
  · exact .inl (hattempted hagain hrestart)
  · rw [hqueue] at hmem
    rcases List.mem_cons.mp hmem with heq | hmem
    · obtain ⟨rfl, hm⟩ := Prod.mk.inj heq
      exact .inl (hok hopen listener hm.symm)
    · exact .inr ⟨listener, hmem⟩

theorem logonDlgProc_eq {hwnd : ℕ} (m : Msg) {restarted : Bool} (set : Bool)
    (h : s.checkAttempted hwnd restarted = s) : s.logonDlgProc hwnd m restarted set = { s with
      fields := (s.logonDlgProc hwnd m restarted set).fields
      attempted := (s.logonDlgProc hwnd m restarted set).attempted } := by
  cases m <;> rw [logonDlgProc, h]

/-- A message that starts a listener. -/
theorem hears_logonDlgProc_iff (s : State) (hwnd : ℕ) (m : Msg) (restarted set : Bool)
    (hopen : s.isOpen hwnd = true) (hattempted : s.attempted = true) (hrestart : s.restart = true) :
    (s.logonDlgProc hwnd m restarted set).Hears ↔ restarted = true ∨
      (∃ listener, m = .ok listener) ∨ ∃ listener, (hwnd, .ok listener) ∈ s.queue := by
  have hcheck : s.checkAttempted hwnd restarted =
      State.restartListenerThread { s with attempted := false } hwnd restarted := by
    rw [checkAttempted, hattempted, hrestart]
    rfl
  have hiff := hears_restart_iff { s with attempted := false } hwnd restarted
  rw [imp_iff_right hopen, ToRestart, and_iff_right hrestart] at hiff
  have hsame : (State.restartListenerThread { s with attempted := false } hwnd restarted).Hears ↔
      restarted = true ∨ ∃ listener, (hwnd, .ok listener) ∈ s.queue :=
    hiff.trans (or_congr_right (or_iff_right nofun))
  cases m with
  | strings message =>
    have hnot : ¬ ∃ listener, Msg.strings message = .ok listener := by rintro ⟨_, ⟨⟩⟩
    rw [or_iff_right hnot, ← hsame, ← hcheck]
    exact Iff.rfl
  | ok listener =>
    refine iff_of_true ?_ (.inr (.inl ⟨listener, rfl⟩))
    intro d hd hopen'
    refine .inr ⟨?_, .inl rfl⟩
    show (s.checkAttempted hwnd restarted).restart = true
    rw [checkAttempted_eq]
    exact hrestart
  | other =>
    have hnot : ¬ ∃ listener, Msg.other = .ok listener := by rintro ⟨_, ⟨⟩⟩
    rw [or_iff_right hnot, ← hsame, ← hcheck]
    exact Iff.rfl

/-- **One step.** -/
theorem hears_step_iff (hinv : Inv s) (hfit : Fitting s) (h : s.Hears) (e : Event) :
    (step s e).Hears ↔ s.Attentive e := by
  cases e with
  | init restarted created =>
    have hlt : ∀ listener, (s.dialogs, .ok listener) ∉ s.queue := by
      intro listener hmem
      exact absurd (hfit.queue_lt _ hmem) (lt_irrefl _)
    have hopen : s.newDialog.isOpen s.dialogs = true := Function.update_self ..
    have hnot : ¬ (s.newDialog.checkAttempted s.dialogs restarted).ToRestart s.dialogs := by
      rw [ToRestart, checkAttempted_eq]
      rintro ⟨hrestart, hattempted | ⟨listener, hmem⟩⟩
      · dsimp only at hrestart hattempted
        rw [hrestart, Bool.not_true, Bool.and_false] at hattempted
        cases hattempted
      · exact hlt listener hmem
    rw [step, initDialog, hears_restart_iff, checkAttempted_isOpen, imp_iff_right hopen,
      or_iff_left hnot, Attentive]
  | dispatch changes restarted set =>
    rw [step]
    cases hqueue : s.queue with
    | nil => exact iff_of_true h fun hwnd m queue hx ↦ nomatch hqueue.symm.trans hx
    | cons x queue =>
      obtain ⟨hwnd, m⟩ := x
      have hattentive : s.Attentive (.dispatch changes restarted set) ↔ (s.isOpen hwnd = true →
          s.attempted = true → s.restart = true → restarted = true ∨
            (∃ listener, m = .ok listener) ∨ ∃ listener, (hwnd, .ok listener) ∈ queue) := by
        rw [Attentive, hqueue]
        refine ⟨fun hall ↦ hall hwnd m queue rfl, fun hall hwnd' m' queue' heq ↦ ?_⟩
        obtain ⟨hx, rfl⟩ := List.cons.inj heq
        obtain ⟨rfl, rfl⟩ := Prod.mk.inj hx
        exact hall
      rw [hattentive]
      dsimp only
      split
      · rename_i hopen
        rw [imp_iff_right hopen]
        set u : State := wlxSASDlgProc { s with queue } hwnd m changes
        by_cases hagain : s.attempted = true ∧ s.restart = true
        · rw [imp_iff_right hagain.1, imp_iff_right hagain.2]
          exact hears_logonDlgProc_iff u hwnd m restarted set hopen hagain.1 hagain.2
        · refine iff_of_true ?_ fun ha hr ↦ absurd ⟨ha, hr⟩ hagain
          have hcheck : u.checkAttempted hwnd restarted = u := by
            rw [checkAttempted, if_neg]
            exact fun hboth ↦ hagain (Bool.and_eq_true_iff.mp hboth)
          refine h.dequeue hqueue ?_ (fun ha hr ↦ absurd ⟨ha, hr⟩ hagain) ?_
          · rw [logonDlgProc_eq m set hcheck]
            rfl
          · rintro - listener rfl
            rfl
      · rename_i hclosed
        refine iff_of_true ?_ fun hopen ↦ absurd hopen hclosed
        exact h.dequeue hqueue rfl (fun ha _ ↦ ha) fun hopen ↦ absurd hopen hclosed
  | click hwnd ok =>
    refine iff_of_true ?_ trivial
    rw [step, State.post]
    split
    · intro d hd hopen
      refine (h d hd hopen).imp_right fun hrestart ↦ ⟨hrestart.1, hrestart.2.imp_right ?_⟩
      rintro ⟨listener, hmem⟩
      exact ⟨listener, List.mem_append_left _ hmem⟩
    · exact h
  | type hwnd => exact iff_of_true h trivial
  | endDialog hwnd =>
    refine iff_of_true (fun d hd hopen ↦ h d hd ?_) trivial
    by_cases hdh : d = hwnd
    · rw [hdh] at hopen
      cases (Function.update_self ..).symm.trans hopen
    · exact (Function.update_of_ne hdh ..).symm.trans hopen
  | thread i ok message =>
    rw [step]
    split
    · rename_i l hl
      rw [hears_threadFunc_iff hinv h hl ok message, Attentive]
      refine ⟨fun hall y hy ↦ ?_, fun hall ↦ hall l hl⟩
      obtain rfl := Option.some.inj (hl.symm.trans hy)
      exact hall
    · rename_i hl
      exact iff_of_true h fun l hl' ↦ nomatch hl.symm.trans hl'

end Hears

end State

section Runs

open State

/-- **One listener at most is alive** after any run, and every pipe is closed or is the one that
listener has.  A pipe is created and stored in `hPipe` in one step. -/
theorem listener_run (restart : Bool) (run : List Event) :
    let s := run.foldl step (init restart)
    (∀ (i j : ℕ) (l m : Listener), s.listeners[i]? = some l → l.stage ≠ .ended →
      s.listeners[j]? = some m → m.stage ≠ .ended → i = j) ∧
      ∀ h < s.pipes, h ∉ s.closed → ∃ (i : ℕ) (l : Listener), s.listeners[i]? = some l ∧
        l.stage ≠ .ended ∧ s.hPipe = some h := by
  have hinv : Inv (run.foldl step (init restart)) :=
    List.foldlRecOn run step (State.inv_init restart) fun _ h e _ ↦ State.inv_step h e
  refine ⟨?_, ?_⟩
  · intro i j l m hl hlive hm hmlive
    exact Option.some.inj ((hinv.alone i l hl hlive).symm.trans (hinv.alone j m hm hmlive))
  · intro h hlt hnot
    have hp := (hinv.kept h hlt).resolve_left hnot
    cases hthread : (run.foldl step (init restart)).hThread with
    | none => cases hp.symm.trans (hinv.noThread hthread)
    | some i =>
      obtain ⟨l, hl, -, hholds⟩ := hinv.thread i hthread
      refine ⟨i, l, hl, ?_, hp⟩
      intro hended
      rw [hended] at hholds
      cases hp.symm.trans hholds

/-- **What a listener submits**, in any run.  If its strings were posted, they were the last that
the fields were to be filled in with, whatever MSGINA's procedure does: that is what they are,
unless they were changed since, or could not be set. -/
theorem submitted_run (restart : Bool) (run : List Event) :
    ∀ x ∈ (run.foldl step (init restart)).submitted, x.posted = true →
      x.fields = .received x.message ∨ x.fields = .changed x.message ∨
        x.fields = .unset x.message := by
  have hboth : Inv (run.foldl step (init restart)) ∧ Fitting (run.foldl step (init restart)) :=
    List.foldlRecOn run step (motive := fun s ↦ Inv s ∧ Fitting s)
      ⟨State.inv_init restart, State.fitting_init restart⟩
      fun _ h e _ ↦ ⟨State.inv_step h.1 e, State.fitting_step h.1 h.2 e⟩
  intro x hx hposted
  exact Fields.last_eq_some_iff.mp (hboth.2.submitted x hx hposted)

/-- A listener reads a message, fills it in and submits it.  The login fails, and MSGINA's procedure
clears the password.  The next listener does the same with another message, and the user changes a
field before its OK. -/
def annBobRun : List Event :=
  .init true true :: List.replicate 11 (.thread 0 true (ascii "ann")) ++
    [.dispatch false true true, .dispatch true true true, .click 0 false,
      .dispatch false true true] ++
    List.replicate 11 (.thread 1 true (ascii "bob")) ++
    [.dispatch false true true, .type 0, .dispatch false true true]

theorem submitted_run_annBob :
    (annBobRun.foldl step (init true)).submitted =
        [⟨ascii "ann", true, .received (ascii "ann")⟩,
          ⟨ascii "bob", true, .changed (ascii "bob")⟩] ∧
      ∀ x ∈ (annBobRun.foldl step (init true)).submitted,
        x.fields = .received x.message ∨ x.fields = .changed x.message ∨
          x.fields = .unset x.message := by
  have hrun : (annBobRun.foldl step (init true)).submitted =
      [⟨ascii "ann", true, .received (ascii "ann")⟩,
        ⟨ascii "bob", true, .changed (ascii "bob")⟩] := by decide +kernel
  refine ⟨hrun, fun x hx ↦ submitted_run true annBobRun x hx ?_⟩
  rw [hrun] at hx
  rcases List.mem_pair.mp hx with rfl | rfl <;> rfl

/-- **When no handle of a pipe is closed twice**, in any run. -/
theorem always_closedOnce_iff (restart : Bool) (run : List Event) :
    Always step ClosedOnce (init restart) run ↔ Each step Unhurried (init restart) run :=
  always_iff_each_of_inv Inv (fun _ e h hinv ↦ closedOnce_step_iff hinv h e)
    (fun _ e _ hinv _ ↦ State.inv_step hinv e) (fun _ ↦ Nat.zero_le _) (State.inv_init restart) run

/-- **When the dialog never goes deaf**, in any run. -/
theorem always_hears_iff (restart : Bool) (run : List Event) :
    Always step Hears (init restart) run ↔ Each step Attentive (init restart) run :=
  always_iff_each_of_inv (fun s ↦ Inv s ∧ Fitting s)
    (fun _ e h hI ↦ hears_step_iff hI.1 hI.2 h e)
    (fun _ e _ hI _ ↦ ⟨State.inv_step hI.1 e, State.fitting_step hI.1 hI.2 e⟩)
    (fun _ hd ↦ by cases hd) ⟨State.inv_init restart, State.fitting_init restart⟩ run

end Runs

end GuestAgent.GinaDlg
