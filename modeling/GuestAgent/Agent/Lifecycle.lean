import GuestAgent.Agent.System

/-!
# Replying to lifecycle events

Before it migrates or hibernates a guest, the host sends a `lifecycle-event` command and waits for
a `completion` message that carries the identifier it sent along.  The agent runs the hooks of the
event and then replies.  What a hook does cannot stop the reply: a hook that exits with an error or
does not start at all is logged, and the loop goes on (`run_runAll`).

What comes before the loop can.  The event is looked up by name among the attributes of the hooks
object, its directory is listed, and of the exceptions these steps raise `parseCommand` catches one,
the `UnknownHookError` of `dispatch`.  `settles` says of an event's name, and of what listing a
directory gives, that no other exception is raised, and `lifecycleEvent_replies_iff` that this is
exactly when the reply is sent.
-/

set_option autoImplicit false

namespace GuestAgent

open Effect Effect.Prog AgentM

/-- From `s` to `t`, the agent hands the messages `ws` to the channel, and nothing else about it
that bears on a later message changes. -/
structure Hands (ws : List Sent) (s t : AgentState) : Prop where
  apiVersion : t.apiVersion = s.apiVersion
  activeUser : t.activeUser = s.activeUser
  written : t.written = s.written ++ ws

theorem Hands.refl (s : AgentState) : Hands [] s s := ⟨rfl, rfl, (List.append_nil _).symm⟩

theorem Hands.trans {ws ws' : List Sent} {s t r : AgentState} (h : Hands ws s t)
    (h' : Hands ws' t r) : Hands (ws ++ ws') s r :=
  ⟨h'.apiVersion.trans h.apiVersion, h'.activeUser.trans h.activeUser, by
    rw [h'.written, h.written, List.append_assoc]⟩

theorem Hands.log (s : AgentState) (record : LogRecord) :
    Hands [] s { s with records := s.records ++ [record] } :=
  ⟨rfl, rfl, (List.append_nil _).symm⟩

section Hooks

variable (p : Platform) (env : Env)

theorem send_hands (name : MessageName) (arguments : Option Dict) (s : AgentState) :
    Hands (if messageMinApiVersion name ≤ s.apiVersion
        then [⟨name, arguments.getD [], s.apiVersion⟩] else []) s
      ((send name arguments).run (handle p env) s).2 := by
  rw [run_send]
  split
  · exact ⟨rfl, rfl, rfl⟩
  · exact .log s _

/-! ## The loop over the hooks -/

theorem run_execute (path : HookPath) (s : AgentState) :
    ∃ out t, (execute path).run (handle p env) s = (.ok out, t) ∧ Hands [] s t := by
  rw [execute, run_bind_ok (run_popen ..)]
  cases env.popen path with
  | failed => exact ⟨_, _, rfl, rfl, rfl, (List.append_nil _).symm⟩
  | exited returncode out err => exact ⟨_, _, rfl, rfl, rfl, (List.append_nil _).symm⟩

theorem run_runHook (path : HookPath) (s : AgentState) :
    ∃ t, (runHook path).run (handle p env) s = (.ok (), t) ∧ Hands [] s t := by
  rw [runHook, run_bind_ok (run_log ..)]
  obtain ⟨⟨retval, out, err⟩, t, hrun, ht⟩ := run_execute p env path
    { s with records := s.records ++ [.attemptingHook path] }
  rw [run_bind_ok hrun]
  dsimp only
  split <;> exact ⟨_, rfl, ((Hands.log s _).trans ht).trans (.log t _)⟩

/-- **No hook stops the loop.** -/
theorem run_runAll (paths : List HookPath) (s : AgentState) :
    ∃ t, (runAll paths).run (handle p env) s = (.ok (), t) ∧ Hands [] s t := by
  induction paths generalizing s with
  | nil => exact ⟨s, rfl, .refl s⟩
  | cons path paths ih =>
    obtain ⟨t, hrun, ht⟩ := run_runHook p env path s
    obtain ⟨r, hrun', hr⟩ := ih t
    exact ⟨r, by rw [runAll, run_bind_ok hrun, hrun'], ht.trans hr⟩

/-! ## The lookup -/

/-- What a hook's name stands for raises nothing but `UnknownHookError`: it is not an attribute or
not a callable one, or it is a method that needs no argument; and the directory of an event can be
listed. -/
def resolves (env : Env) (hook : PyObj) : Bool :=
  match getattrHook hook with
  | .ok (some (.event e)) => (env.listdir e).isSome
  | .ok (some .needsArgs) | .error _ => false
  | .ok (some .method) | .ok (some .data) | .ok none => true

/-- The exception is the one `parseCommand` catches. -/
def IsUnknownHook : PyExn → Prop
  | .unknownHookError _ => True
  | _ => False

theorem getattrHook_error {hook : PyObj} {e : PyExn} (h : getattrHook hook = .error e) :
    ¬ IsUnknownHook e := by
  unfold getattrHook at h
  split at h
  · cases h
  · split at h <;> cases h
    exact id
  · cases h
    exact id

/-- `dispatch` writes nothing, and raises an exception that is not caught unless the name
resolves. -/
theorem run_dispatch (hook : PyObj) (s : AgentState) :
    ∃ out t, (dispatch hook).run (handle p env) s = (out, t) ∧ Hands [] s t ∧
      (resolves env hook = true ↔ ∀ e, out = .error e → IsUnknownHook e) := by
  have hunknown : IsUnknownHook (unknownHook hook) := by
    unfold unknownHook
    split <;> trivial
  rw [dispatch, resolves]
  rcases h : getattrHook hook with e | (_ | (e | _ | _ | _))
  · -- the name is not a string, or not an ASCII one
    exact ⟨.error e, s, rfl, .refl s,
      iff_of_false Bool.false_ne_true fun he ↦ getattrHook_error h (he e rfl)⟩
  · exact ⟨_, s, rfl, .refl s, iff_of_true rfl fun _ he ↦ by cases he; exact hunknown⟩
  · rw [run_bind_ok (run_ofExcept ..)]
    dsimp only
    rw [runHooks, findHooks, run_bind, run_bind, run_listdir]
    cases env.listdir e with
    | none => exact ⟨_, s, rfl, .refl s, iff_of_false (by simp) fun he ↦ he _ rfl⟩
    | some files =>
      obtain ⟨t, hrun, ht⟩ := run_runAll p env (sortedHooks e files) s
      exact ⟨.ok (), t, hrun, ht, iff_of_true rfl fun _ he ↦ by cases he⟩
  · exact ⟨_, s, rfl, .refl s, iff_of_true rfl fun _ he ↦ by cases he⟩
  · exact ⟨_, s, rfl, .refl s, iff_of_false Bool.false_ne_true fun he ↦ he _ rfl⟩
  · exact ⟨_, s, rfl, .refl s, iff_of_true rfl fun _ he ↦ by cases he; exact hunknown⟩

/-! ## The reply -/

/-- The event of a command is left out, or its hooks are run and raise nothing that is not caught.
An empty name is treated as none. -/
def settles (env : Env) : Option PyObj → Bool
  | none => true
  | some name => !name.truthy || resolves env name

/-- The completion message for the identifier `id`. -/
def completion (id : PyObj) (apiVersion : Int) : Sent :=
  ⟨.completion, [(key "reply_id", id), (key "done", .bool true)], apiVersion⟩

/-- The reply a command asks for, at version `v`. -/
def replyMessages (args : Dict) (v : Int) : List Sent :=
  match args.get? (key "reply_id") with
  | some id => if 3 ≤ v then [completion id v] else []
  | none => []

/-- What a lifecycle event is answered with at version `v`. -/
def lifecycleReply (env : Env) (args : Dict) (v : Int) : List Sent :=
  if settles env (args.get? (key "type")) then replyMessages args v else []

theorem run_tryDispatch (name : PyObj) (s : AgentState) :
    ∃ out t, (tryDispatch name).run (handle p env) s = (out, t) ∧ Hands [] s t ∧
      (resolves env name = true ↔ out = .ok ()) := by
  obtain ⟨out, t, hrun, ht, hres⟩ := run_dispatch p env name s
  rw [tryDispatch, run_tryExcept, hrun, hres]
  rcases out with e | _
  · simp only [Except.error.injEq, forall_eq']
    cases e with
    | unknownHookError hook =>
      exact ⟨.ok (), _, rfl, ht.trans (.log t _), iff_of_true trivial rfl⟩
    | _ => exact ⟨.error _, t, rfl, ht, iff_of_false id (by simp)⟩
  · exact ⟨.ok (), t, rfl, ht, iff_of_true (fun _ he ↦ by cases he) rfl⟩

theorem replyTo_hands (args : Dict) (s : AgentState) :
    Hands (replyMessages (args.del (key "type")) s.apiVersion) s
      ((replyTo (args.del (key "type"))).run (handle p env) s).2 := by
  rw [replyMessages, replyTo]
  cases (args.del (key "type")).get? (key "reply_id") with
  | some id =>
    have hreply : Hands (if 3 ≤ s.apiVersion then [completion id s.apiVersion] else []) s
        ((reply id).run (handle p env) s).2 :=
      send_hands p env .completion (some [(key "reply_id", id), (key "done", .bool true)]) s
    exact hreply
  | none => exact .refl s

/-- Taking the event out of the arguments leaves the identifier in them. -/
theorem replyMessages_del (args : Dict) (v : Int) :
    replyMessages (args.del (key "type")) v = replyMessages args v := by
  have hdel : (args.del (key "type")).get? (key "reply_id") = args.get? (key "reply_id") :=
    Dict.get?_del (by decide) args
  rw [replyMessages, replyMessages, hdel]

/-- **What a lifecycle event is answered with.** -/
theorem lifecycleEvent_hands (args : Dict) (s : AgentState) :
    Hands (lifecycleReply env args s.apiVersion) s
      ((lifecycleEvent args).run (handle p env) s).2 := by
  have hreply : ∀ t : AgentState, t.apiVersion = s.apiVersion →
      Hands (replyMessages args s.apiVersion) t
        ((replyTo (args.del (key "type"))).run (handle p env) t).2 := by
    intro t ht
    rw [← ht, ← replyMessages_del]
    exact replyTo_hands p env args t
  rw [lifecycleEvent, lifecycleReply]
  rcases args.get? (key "type") with _ | name
  · exact hreply s rfl
  · rw [Option.getD_some]
    by_cases htruthy : name.truthy = true
    · have hset : settles env (some name) = resolves env name := by simp [settles, htruthy]
      obtain ⟨out, t, hrun, ht, hres⟩ := run_tryDispatch p env name s
      rw [if_pos htruthy, run_bind, hrun, hset]
      rcases out with e | _
      · have hfail : resolves env name = false := by simpa using hres
        rw [hfail, if_neg Bool.false_ne_true]
        exact ht
      · rw [if_pos (hres.mpr rfl)]
        exact ht.trans (hreply t ht.apiVersion)
    · have hset : settles env (some name) = true := by simp [settles, htruthy]
      rw [if_neg htruthy, hset, if_pos rfl]
      exact hreply s rfl

end Hooks

/-- **The host gets its reply exactly when the hooks settle.** -/
theorem lifecycleEvent_replies_iff {p : Platform} {env : Env} {command id : PyObj} {args : Dict}
    {s : AgentState} (hc : Command.ofObj command = some .lifecycleEvent)
    (hid : args.get? (key "reply_id") = some id) (hv : 3 ≤ s.apiVersion) :
    ((parseCommand command args).run (handle p env) s).2.written =
        s.written ++ [completion id s.apiVersion] ↔
      settles env (args.get? (key "type")) := by
  rw [parseCommand, run_bind_ok (run_log ..), hc]
  have hands := lifecycleEvent_hands p env args
    { s with records := s.records ++ [.receivedCommand command] }
  refine (Eq.congr_left hands.written).trans ?_
  rw [lifecycleReply, replyMessages, hid]
  cases settles env (args.get? (key "type")) <;> simp [hv]

/-- The host announces a migration. -/
def migrationArgs : Dict :=
  [(key "type", .ofString "before_migration"), (key "reply_id", .ofString "1")]

/-- The agent at version 3, with nothing reported yet. -/
def agentAtThree : AgentState := { System.init.agent with apiVersion := 3 }

theorem lifecycleEvent_replies_idle :
    ((parseCommand (.ofString "lifecycle-event") migrationArgs).run (handle .linux .idle)
          agentAtThree).2.written = [completion (.ofString "1") 3] ↔
      settles .idle (migrationArgs.get? (key "type")) :=
  lifecycleEvent_replies_iff (by decide) rfl (by decide)

/-- Where the directory of the event does not exist, the host is left waiting. -/
theorem lifecycleEvent_unanswered :
    ¬ ((parseCommand (.ofString "lifecycle-event") migrationArgs).run
        (handle .linux { Env.idle with listdir := fun _ ↦ none }) agentAtThree).2.written =
      agentAtThree.written ++ [completion (.ofString "1") 3] := by
  intro h
  exact absurd (congrArg List.length h) (by decide)

end GuestAgent
