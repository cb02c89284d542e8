import GuestAgent.Library.Transition
import Mathlib.Data.Nat.Notation

/-!
# Stopping the credentials server

The main thread stops the credentials server by setting its `_quit` and waiting until the thread of
the server ends.  The thread looks at `_quit` in front of every iteration of its loop, but before
the loop it sets it to `False` itself, behind a connection to D-Bus that may take any time.

`always_heeds_iff` says what a stop comes to: the server begins no further iteration and ends within
three steps of its own, unless the stop comes in front of that assignment and the thread gets to it.
In `not_always_heeds` it does, and the main thread waits for a server that goes on.
-/

set_option autoImplicit false

namespace GuestAgent

open Transition

/-! ## The two threads -/

/-- Where `CredServer.run` is. -/
inductive CredPoint where
  /-- `self._dbus = CredDBusObject()` -/
  | connect
  /-- `self._quit = False` -/
  | reset
  /-- `main = gobject.MainLoop()`, `main.get_context()`. -/
  | context
  /-- `while not self._quit` -/
  | test
  /-- `context.iteration(False)` -/
  | iteration
  /-- `time.sleep(1)` -/
  | sleep
  /-- It has returned or raised. -/
  | ended
  deriving DecidableEq, Repr

/-- Where `CredServer.join` is, in the thread that stops the server. -/
inductive JoinPoint where
  | notCalled
  /-- It has set `_quit`, and is in `Thread.join`. -/
  | waiting
  | returned
  deriving DecidableEq, Repr

/-- A `CredServer`, with the point each thread is at.  Nothing reads the last two fields. -/
structure CredServer where
  quit : Bool
  run : CredPoint
  join : JoinPoint
  /-- The iterations begun since `join` has set `_quit`. -/
  begun : ℕ
  /-- The steps `run` has taken since then. -/
  steps : ℕ
  deriving DecidableEq, Repr

namespace CredServer

/-- The server when `start` has returned: `_quit` is what `__init__` made it. -/
def start : CredServer where
  quit := false
  run := .connect
  join := .notCalled
  begun := 0
  steps := 0

/-- The next statement of `run`, which raises if it can and `ok` is false. -/
def runStep (s : CredServer) (ok : Bool) : CredServer :=
  match s.run with
  | .connect => { s with run := if ok then .reset else .ended }
  | .reset => { s with quit := false, run := .context }
  | .context => { s with run := if ok then .test else .ended }
  | .test => { s with run := if s.quit then .ended else .iteration }
  | .iteration => { s with run := if ok then .sleep else .ended }
  | .sleep => { s with run := if ok then .test else .ended }
  | .ended => s

/-- What has happened since `join` has set `_quit`. -/
def count (s t : CredServer) : CredServer :=
  if s.join = .notCalled ∨ s.run = .ended then t
  else { t with
    begun := if t.run = .iteration then t.begun + 1 else t.begun
    steps := t.steps + 1 }

end CredServer

/-- What happens next. -/
inductive CredEvent where
  /-- The thread of the server takes a step. -/
  | run (ok : Bool)
  /-- `join` is called, and does `self._quit = True`. -/
  | join
  /-- `Thread.join` returns, if the thread has ended. -/
  | joined
  deriving DecidableEq, Repr

namespace CredServer

def step (s : CredServer) : CredEvent → CredServer
  | .run ok => s.count (s.runStep ok)
  | .join => if s.join = .notCalled then { s with quit := true, join := .waiting } else s
  | .joined =>
    if s.join = .waiting ∧ s.run = .ended then { s with join := .returned } else s

/-! ## What a stop comes to -/

/-- The server heeds a stop: `_quit` stays as it is, at most the iteration in progress is finished,
and the server ends within three steps. -/
def Heeds (s : CredServer) : Prop :=
  s.join ≠ .notCalled → s.quit = true ∧ s.begun = 0 ∧ (s.run = .ended ∨ s.steps < 3)

/-- The server does not lose a stop in this step: it is not behind `CredDBusObject()` with `_quit`
set. -/
def Keeps (s : CredServer) : CredEvent → Prop
  | .run _ => s.run = .reset → s.join = .notCalled
  | .join | .joined => True

/-- The steps a server that is to stop has before it. -/
def left : CredPoint → ℕ
  | .ended => 0
  | .test => 1
  | .sleep | .context | .reset => 2
  | .iteration | .connect => 3

/-- What holds as long as no stop is lost. -/
structure Inv (s : CredServer) : Prop where
  fresh : s.join = .notCalled → s.begun = 0 ∧ s.steps = 0
  stopped : s.join ≠ .notCalled → s.quit = true ∧ s.begun = 0 ∧ s.steps + left s.run ≤ 3

theorem inv_start : start.Inv := ⟨fun _ ↦ ⟨rfl, rfl⟩, fun h ↦ absurd rfl h⟩

theorem left_le (p : CredPoint) : left p ≤ 3 := by
  cases p <;> decide

theorem left_pos {p : CredPoint} (h : p ≠ .ended) : 0 < left p := by
  cases p with
  | ended => exact absurd rfl h
  | connect | reset | context | test | iteration | sleep => exact Nat.succ_pos _

theorem Inv.heeds {s : CredServer} (h : s.Inv) : s.Heeds := by
  intro hjoin
  obtain ⟨hquit, hbegun, hle⟩ := h.stopped hjoin
  refine ⟨hquit, hbegun, ?_⟩
  by_cases hended : s.run = .ended
  · exact .inl hended
  · have hpos : 0 < left s.run := left_pos hended
    exact .inr (by omega)

/-! ## One step -/

section Steps

variable {s : CredServer} (ok : Bool)

theorem runStep_join : (s.runStep ok).join = s.join := by
  rw [runStep]
  split <;> rfl

theorem runStep_begun : (s.runStep ok).begun = s.begun := by
  rw [runStep]
  split <;> rfl

theorem runStep_steps : (s.runStep ok).steps = s.steps := by
  rw [runStep]
  split <;> rfl

/-- `run` writes `_quit` in one place. -/
theorem runStep_quit (h : s.run ≠ .reset) : (s.runStep ok).quit = s.quit := by
  rw [runStep]
  split <;> first | rfl | contradiction

/-- A server that sees `_quit` begins no iteration, and each of its steps brings its end closer. -/
theorem left_runStep_lt (hquit : s.quit = true) (hended : s.run ≠ .ended) (h : s.run ≠ .reset) :
    (s.runStep ok).run ≠ .iteration ∧ left (s.runStep ok).run < left s.run := by
  rw [runStep]
  cases hrun : s.run with
  | ended => exact absurd hrun hended
  | reset => exact absurd hrun h
  | test =>
    rw [hquit]
    exact ⟨nofun, Nat.zero_lt_one⟩
  | connect | context | iteration | sleep => cases ok <;> exact ⟨nofun, by simp [left]⟩

theorem Inv.run (hs : s.Inv) (hkeeps : s.Keeps (.run ok)) : (s.step (.run ok)).Inv := by
  rw [step, count]
  split
  case isTrue h =>
    rcases h with hjoin | hended
    · refine ⟨fun _ ↦ ?_, fun h ↦ absurd ((runStep_join ok).trans hjoin) h⟩
      rw [runStep_begun, runStep_steps]
      exact hs.fresh hjoin
    · rwa [runStep, hended]
  case isFalse h =>
    obtain ⟨hjoin, hended⟩ := not_or.mp h
    obtain ⟨hquit, hbegun, hle⟩ := hs.stopped hjoin
    have hreset : s.run ≠ .reset := fun hrun ↦ hjoin (hkeeps hrun)
    obtain ⟨hiter, hlt⟩ := left_runStep_lt ok hquit hended hreset
    refine ⟨fun h ↦ absurd ((runStep_join ok).symm.trans h) hjoin, fun _ ↦ ?_⟩
    refine ⟨(runStep_quit ok hreset).trans hquit, ?_, ?_⟩
    · rw [if_neg hiter, runStep_begun, hbegun]
    · show (s.runStep ok).steps + 1 + left (s.runStep ok).run ≤ 3
      rw [runStep_steps]
      omega

theorem Inv.join (hs : s.Inv) : (s.step .join).Inv := by
  rw [step]
  split
  case isTrue h =>
    obtain ⟨hbegun, hsteps⟩ := hs.fresh h
    refine ⟨nofun, fun _ ↦ ⟨rfl, hbegun, ?_⟩⟩
    rw [hsteps, Nat.zero_add]
    exact left_le s.run
  case isFalse h => exact hs

theorem Inv.joined (hs : s.Inv) : (s.step .joined).Inv := by
  rw [step]
  split
  case isTrue h => exact ⟨nofun, fun _ ↦ hs.stopped (by rw [h.1]; exact nofun)⟩
  case isFalse h => exact hs

theorem Inv.step (hs : s.Inv) {e : CredEvent} (hkeeps : s.Keeps e) : (s.step e).Inv := by
  cases e with
  | run ok => exact hs.run ok hkeeps
  | join => exact hs.join
  | joined => exact hs.joined

/-- The assignment of `run` undoes that of `join`. -/
theorem not_heeds_of_not_keeps {e : CredEvent} (h : ¬ s.Keeps e) : ¬ (s.step e).Heeds := by
  cases e with
  | join => exact absurd trivial h
  | joined => exact absurd trivial h
  | run ok =>
    obtain ⟨hrun, hjoin⟩ := Classical.not_imp.mp h
    have hcond : ¬ (s.join = .notCalled ∨ s.run = .ended) := by simp [hjoin, hrun]
    rw [CredServer.step, count, if_neg hcond]
    intro hheeds
    have hquit : (s.runStep ok).quit = true := (hheeds (by rwa [← runStep_join ok] at hjoin)).1
    rw [runStep, hrun] at hquit
    cases hquit

end Steps

/-! ## Every run -/

/-- **A stop is heeded** in a run exactly when `run` is not, with `_quit` set, in front of its own
assignment and goes on. -/
theorem always_heeds_iff (events : List CredEvent) :
    Always step Heeds start events ↔ Each step Keeps start events :=
  always_iff_each_of_inv Inv
    (fun _ _ _ hs ↦ ⟨fun h ↦ Classical.not_not.mp fun hkeeps ↦ not_heeds_of_not_keeps hkeeps h,
      fun hkeeps ↦ (hs.step hkeeps).heeds⟩)
    (fun _ _ _ hs hkeeps ↦ hs.step hkeeps) inv_start.heeds inv_start events

/-- The server is stopped while it connects, and goes on. -/
theorem not_always_heeds : ¬ Always step Heeds start [.join, .run true, .run true] := by
  rintro ⟨-, -, -, h⟩
  cases (h nofun).1

end CredServer

end GuestAgent
