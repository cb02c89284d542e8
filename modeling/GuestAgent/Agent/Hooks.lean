import Mathlib.Data.List.Sort
import GuestAgent.Agent.Interface

/-!
# Running hooks

`Hooks` runs the programs found in the directory of an event, such as `before_migration`.  The
event is named by the host, and `dispatch` looks the name up with `getattr`: what it finds need not
be one of the four events.  It may be a helper method, a data attribute, or anything every object
inherits, and the name may not even be a string.

`hookAttributes` therefore lists every attribute of a `Hooks` object with what calling it without
arguments does.
-/

set_option autoImplicit false

namespace GuestAgent

open Effect.Prog AgentM

/-- What an attribute of a `Hooks` object does when called without arguments. -/
inductive HookAttr where
  /-- It runs the hooks of an event. -/
  | event (e : HookEvent)
  /-- It returns. -/
  | method
  /-- It needs an argument, so that the call raises `TypeError`. -/
  | needsArgs
  /-- It is not callable, or it is `None`. -/
  | data
  deriving DecidableEq, Repr

/-- The attributes of a `Hooks` object: its own, those of its class and those of `object`. -/
def hookAttributes : List (String × HookAttr) :=
  [("before_hibernation", .event .beforeHibernation),
   ("after_hibernation", .event .afterHibernation),
   ("before_migration", .event .beforeMigration),
   ("after_migration", .event .afterMigration),
   ("__init__", .needsArgs), ("_find_hooks", .needsArgs), ("_execute", .needsArgs),
   ("_run", .needsArgs), ("dispatch", .needsArgs),
   ("_hook_dir", .data), ("_log", .data),
   ("__class__", .needsArgs), ("__delattr__", .needsArgs), ("__dict__", .data), ("__doc__", .data),
   ("__format__", .needsArgs), ("__getattribute__", .needsArgs), ("__hash__", .method),
   ("__module__", .data), ("__new__", .needsArgs), ("__reduce__", .method),
   ("__reduce_ex__", .method), ("__repr__", .method), ("__setattr__", .needsArgs),
   ("__sizeof__", .method), ("__str__", .method), ("__subclasshook__", .method),
   ("__weakref__", .data)]

/-- The attribute a name stands for. -/
def hookAttribute (name : Text) : Option HookAttr :=
  (hookAttributes.find? fun p ↦ u p.1 == name).map Prod.snd

/-- `getattr(self, hook, None)`: a Unicode name is encoded as ASCII first, and anything but a
string raises. -/
def getattrHook : PyObj → Except PyExn (Option HookAttr)
  | .str (.str b) => .ok (hookAttribute (b.map UInt8.toNat))
  | .str (.unicode t) => if t.all (· < 128) then .ok (hookAttribute t) else .error .unicodeError
  | _ => .error .typeError

/-- `UnknownHookError(hook)`. -/
def unknownHook : PyObj → PyExn
  | .str (.str b) => .unknownHookError (b.map UInt8.toNat)
  | .str (.unicode t) => .unknownHookError t
  | _ => .unknownHookError []

/-- `files.sort()` followed by joining each file to the directory. -/
def sortedHooks (event : HookEvent) (files : List Bytes) : List HookPath :=
  (files.insertionSort (· ≤ ·)).map fun f ↦ ⟨event, some f⟩

/-- `_find_hooks`. -/
def findHooks (event : HookEvent) : AgentM (List HookPath) := do
  let files ← listdir event
  pure (sortedHooks event files)

/-- `_execute`. -/
def execute (path : HookPath) : AgentM (Int × Bytes × Bytes) := do
  match ← popen path with
  | .failed => do
    log (.executingFailed path)
    pure (-1, [], [])
  | .exited returncode out err => pure (returncode, out, err)

/-- One round of the loop of `_run`. -/
def runHook (path : HookPath) : AgentM Unit := do
  log (.attemptingHook path)
  let (retval, out, err) ← execute path
  if retval ≠ 0 then log (.hookFailed path retval out err)
  else log (.hookExecuted path)

/-- The loop of `_run`. -/
def runAll : List HookPath → AgentM Unit
  | [] => pure ()
  | path :: paths => do
    runHook path
    runAll paths

/-- `_run`. -/
def runHooks (event : HookEvent) : AgentM Unit := do
  let paths ← findHooks event
  runAll paths

/-- `dispatch`. -/
def dispatch (hook : PyObj) : AgentM Unit := do
  match ← ofExcept (getattrHook hook) with
  | some (.event e) => runHooks e
  | some .method => pure ()
  | some .needsArgs => raise .typeError
  | some .data | none => raise (unknownHook hook)

end GuestAgent
