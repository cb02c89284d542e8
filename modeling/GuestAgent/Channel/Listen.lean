import GuestAgent.Agent.System
import GuestAgent.Channel.VirtIo

/-!
# Listening to the host

`doListen` reads one line after the other, and hands each that is a message to `parseCommand`.
Nothing ends it but `wait_stop`: an exception, of the stream or of a command, is logged, and the
loop goes on with the next line.

What has been handed over and what is still to be, taken together, never changes.  That is
`listenOnce_commands`, one round of the loop, and from it `listens` reads off that the commands of a
stream are handed over as they are in it, each once and in order, whatever pieces it arrives in and
whatever goes wrong in between.  `readlines_lines` is the same for `_readline` alone.
-/

set_option autoImplicit false

namespace GuestAgent

open Effect

/-! ## Reading lines -/

/-- Successive calls of `_readline`, until one waits. -/
def readlines : ℕ → Reader → List (Except PyExn Bytes) × Reader
  | 0, r => ([], r)
  | n + 1, r =>
    match readline r with
    | (some out, r) => (out :: (readlines n r).1, (readlines n r).2)
    | (none, r) => ([], r)

/-- The lines that were returned. -/
def returned (outs : List (Except PyExn Bytes)) : List Bytes := outs.filterMap Except.toOption

theorem returned_cons (out : Except PyExn Bytes) (outs : List (Except PyExn Bytes)) :
    returned (out :: outs) = returned [out] ++ returned outs := by
  cases out <;> rfl

section Reads

variable {r r' : Reader} {out : Option (Except PyExn Bytes)}

theorem Reader.Reads.lines_eq (h : r.Reads out r') :
    r.lines = returned out.toList ++ r'.lines := by
  cases h with
  | line line r' hlines => exact hlines
  | failed e r' hahead => exact congrArg (Framing.lines newline) hahead
  | waiting r' hahead => exact congrArg (Framing.lines newline) hahead

theorem Reader.Reads.tail_eq (h : r.Reads out r') :
    Framing.tail newline r.ahead = Framing.tail newline r'.ahead := by
  cases h with
  | line line r' hlines htail => exact htail
  | failed e r' hahead => rw [hahead]
  | waiting r' hahead => rw [hahead]

theorem Reader.ahead_of_waiting (hevents : r.events = []) : r.ahead = r.buffer := by
  rw [Reader.ahead, hevents, delivered, List.append_nil]

theorem Reader.lines_of_waiting (hevents : r.events = []) (hbuffer : newline ∉ r.buffer) :
    r.lines = [] := by
  rw [Reader.lines, ahead_of_waiting hevents, Framing.lines_of_notMem hbuffer]

/-- A call that returns or raises brings the one that waits forever closer. -/
theorem Reader.Reads.pending_eq (h : r.Reads out r') : r'.pending = r.pending - 1 := by
  cases h with
  | line line r' hlines htail hfailures =>
    rw [Reader.pending, Reader.pending, hlines, hfailures, List.length_cons]
    omega
  | failed e r' hahead hfailures =>
    rw [Reader.pending, Reader.pending, Reader.lines, Reader.lines, hahead, hfailures]
    omega
  | waiting r' hahead hevents hbuffer hfailures =>
    have hlines := Reader.lines_of_waiting hevents hbuffer
    have hlines' : r.lines = [] := (congrArg (Framing.lines newline) hahead).trans hlines
    rw [Reader.pending, Reader.pending, hlines, hlines', hfailures, hevents]
    rfl

theorem Reader.Reads.pending_pos (h : r.Reads out r') (hout : out ≠ none) : 0 < r.pending := by
  cases h with
  | line line r' hlines =>
    rw [Reader.pending, hlines, List.length_cons]
    omega
  | failed e r' hahead hfailures =>
    rw [Reader.pending, hfailures]
    omega
  | waiting => exact absurd rfl hout

end Reads

/-- After so many calls, what was returned and what is still to be are the lines of the stream. -/
theorem readlines_spec (n : ℕ) (r : Reader) :
    returned (readlines n r).1 ++ (readlines n r).2.lines = r.lines ∧
      Framing.tail newline (readlines n r).2.ahead = Framing.tail newline r.ahead := by
  induction n generalizing r with
  | zero => exact ⟨rfl, rfl⟩
  | succ n ih =>
    have hreads := readline_reads r
    rw [hreads.lines_eq, hreads.tail_eq, readlines]
    rcases readline r with ⟨_ | out, r'⟩
    · exact ⟨rfl, rfl⟩
    · obtain ⟨hlines, htail⟩ := ih r'
      refine ⟨?_, htail⟩
      show returned (out :: (readlines n r').1) ++ _ = returned [out] ++ r'.lines
      rw [returned_cons, List.append_assoc, hlines]

/-- After enough calls, one waits. -/
theorem readlines_waiting {n : ℕ} {r : Reader} (hn : r.pending < n) :
    (readlines n r).2.events = [] ∧ newline ∉ (readlines n r).2.buffer := by
  induction n generalizing r with
  | zero => omega
  | succ n ih =>
    have hreads := readline_reads r
    rw [readlines]
    rcases hr : readline r with ⟨_ | out, r'⟩
    · rw [hr] at hreads
      cases hreads with
      | waiting _ hahead hevents hbuffer => exact ⟨hevents, hbuffer⟩
    · rw [hr] at hreads
      have hpos := hreads.pending_pos (Option.some_ne_none out)
      have hpending : r'.pending = r.pending - 1 := hreads.pending_eq
      exact ih (by omega)

/-- The lines of a stream, and what is left over. -/
theorem readlines_eq {n : ℕ} {events : List ReadEvent} (hn : Reader.pending ⟨[], events⟩ < n) :
    returned (readlines n ⟨[], events⟩).1 = Framing.lines newline (delivered events) ∧
      (readlines n ⟨[], events⟩).2.buffer = Framing.tail newline (delivered events) := by
  obtain ⟨hlines, htail⟩ := readlines_spec n ⟨[], events⟩
  obtain ⟨hevents, hbuffer⟩ := readlines_waiting hn
  rw [Reader.lines_of_waiting hevents hbuffer, List.append_nil] at hlines
  rw [Reader.ahead_of_waiting hevents, Framing.tail_of_notMem hbuffer] at htail
  exact ⟨hlines, htail⟩

/-! ## The loop -/

/-- The state of `doListen`: its channel, the agent, the commands handed to `parseCommand` so far
and the exceptions logged. -/
structure Listener (σ : Type) where
  reader : Reader
  agent : σ
  calls : List (PyObj × Dict)
  logged : List PyExn

variable {σ : Type}

/-- One round of the loop of `doListen`.  The agent's `parseCommand` returns or raises, and leaves
the agent in some state. -/
def listenOnce (json : Json) (parse : PyObj → Dict → σ → Except PyExn Unit × σ) (s : Listener σ) :
    Listener σ :=
  match channelRead json s.reader with
  | (none, reader) => { s with reader }
  | (some (.error e), reader) => { s with reader, logged := s.logged ++ [e] }
  | (some (.ok none), reader) => { s with reader }
  | (some (.ok (some (cmd, args))), reader) =>
    if cmd.truthy then
      let calls := s.calls ++ [(cmd, args)]
      match parse cmd args s.agent with
      | (.ok (), agent) => { s with reader, agent, calls }
      | (.error e, agent) => { s with reader, agent, calls, logged := s.logged ++ [e] }
    else { s with reader }

/-- The loop of `doListen`, for the answers of `wait_stop.isSet`. -/
def listenLoop (json : Json) (parse : PyObj → Dict → σ → Except PyExn Unit × σ) :
    List Bool → Listener σ → Listener σ
  | false :: isSet, s => listenLoop json parse isSet (listenOnce json parse s)
  | _, s => s

/-- `doListen`. -/
def doListen (commandHandler : Option Platform) (json : Json)
    (parse : PyObj → Dict → σ → Except PyExn Unit × σ) (isSet : List Bool) (s : Listener σ) :
    Listener σ :=
  match commandHandler with
  | none => s
  | some _ => listenLoop json parse isSet s

/-- The command in a line: the message, where its name is true in a condition. -/
def commandOf (json : Json) (line : Bytes) : Option (PyObj × Dict) :=
  (parseLine json line).filter fun command ↦ command.1.truthy

/-- The commands of a stream. -/
def commandsOf (json : Json) (stream : Bytes) : List (PyObj × Dict) :=
  (Framing.lines newline stream).filterMap (commandOf json)

section Loop

variable (json : Json) (parse : PyObj → Dict → σ → Except PyExn Unit × σ)

/-- What the commands do to the agent, whether they return or raise. -/
def parseAll (agent : σ) (commands : List (PyObj × Dict)) : σ :=
  commands.foldl (fun agent command ↦ (parse command.1 command.2 agent).2) agent

/-- The commands in the line a round of the loop reads, if it reads one. -/
def nextCommands (r : Reader) : List (PyObj × Dict) :=
  (returned (readline r).1.toList).filterMap (commandOf json)

/-- What a round of the loop does to the channel, what it hands over, and what becomes of it. -/
theorem listenOnce_spec (s : Listener σ) :
    (listenOnce json parse s).reader = (readline s.reader).2 ∧
      (listenOnce json parse s).calls = s.calls ++ nextCommands json s.reader ∧
      (listenOnce json parse s).agent = parseAll parse s.agent (nextCommands json s.reader) := by
  rw [listenOnce, channelRead, nextCommands]
  rcases readline s.reader with ⟨_ | _ | line, reader⟩
  · exact ⟨rfl, (List.append_nil _).symm, rfl⟩
  · exact ⟨rfl, (List.append_nil _).symm, rfl⟩
  · have hreturned : (returned (some (Except.ok line)).toList).filterMap (commandOf json) =
        (commandOf json line).toList := by
      show [line].filterMap (commandOf json) = _
      cases h : commandOf json line <;> simp [h]
    rw [hreturned, commandOf]
    rcases hparse : parseLine json line with _ | ⟨cmd, args⟩
    · simp [Except.map, hparse, parseAll]
    · by_cases hcmd : cmd.truthy
      · rcases hrun : parse cmd args s.agent with ⟨_ | _, agent⟩ <;>
          simp [Except.map, hparse, hcmd, hrun, Option.filter, parseAll]
      · simp [Except.map, hparse, hcmd, Option.filter, parseAll]

/-- **What was handed over and what is still to be** are the commands of the stream. -/
theorem listenOnce_commands (s : Listener σ) :
    (listenOnce json parse s).calls ++ commandsOf json (listenOnce json parse s).reader.ahead =
      s.calls ++ commandsOf json s.reader.ahead := by
  obtain ⟨hreader, hcalls, -⟩ := listenOnce_spec json parse s
  have hlines : Framing.lines newline s.reader.ahead = _ := (readline_reads s.reader).lines_eq
  rw [hreader, hcalls, commandsOf, commandsOf, hlines, List.filterMap_append, List.append_assoc]
  rfl

/-- What became of the agent is what the commands handed over did. -/
theorem listenLoop_agent (isSet : List Bool) (s : Listener σ) :
    ∃ commands, (listenLoop json parse isSet s).calls = s.calls ++ commands ∧
      (listenLoop json parse isSet s).agent = parseAll parse s.agent commands := by
  induction isSet generalizing s with
  | nil => exact ⟨[], (List.append_nil _).symm, rfl⟩
  | cons b isSet ih =>
    cases b with
    | true => exact ⟨[], (List.append_nil _).symm, rfl⟩
    | false =>
      obtain ⟨-, hcalls, hagent⟩ := listenOnce_spec json parse s
      obtain ⟨commands, hcalls', hagent'⟩ := ih (listenOnce json parse s)
      refine ⟨nextCommands json s.reader ++ commands, ?_, ?_⟩
      · rw [listenLoop, hcalls', hcalls, List.append_assoc]
      · rw [listenLoop, hagent', hagent, parseAll, parseAll, parseAll, List.foldl_append]

/-- At every moment, the commands handed over are the first ones of the stream. -/
theorem listenLoop_commands (isSet : List Bool) (s : Listener σ) :
    (listenLoop json parse isSet s).calls ++
        commandsOf json (listenLoop json parse isSet s).reader.ahead =
      s.calls ++ commandsOf json s.reader.ahead := by
  induction isSet generalizing s with
  | nil => rfl
  | cons b isSet ih =>
    cases b with
    | true => rfl
    | false => rw [listenLoop, ih, listenOnce_commands]

/-- A round of the loop is one call of `_readline`. -/
theorem listenLoop_pending (n : ℕ) (s : Listener σ) :
    (listenLoop json parse (List.replicate n false) s).reader.pending = s.reader.pending - n := by
  induction n generalizing s with
  | zero => rfl
  | succ n ih =>
    have hpending : (listenOnce json parse s).reader.pending = s.reader.pending - 1 := by
      rw [(listenOnce_spec json parse s).1]
      exact (readline_reads s.reader).pending_eq
    rw [List.replicate_succ, listenLoop, ih, hpending]
    omega

/-- After enough rounds there is nothing left to hand over. -/
theorem commandsOf_of_pending {r : Reader} (h : r.pending = 0) : commandsOf json r.ahead = [] := by
  have hlines : r.lines = [] := List.length_eq_zero_iff.mp (by rw [Reader.pending] at h; omega)
  show r.lines.filterMap (commandOf json) = []
  rw [hlines]
  rfl

end Loop

theorem doListen_calls {events : List ReadEvent} {n : ℕ} (hn : Reader.pending ⟨[], events⟩ ≤ n)
    (json : Json) (p : Platform) (parse : PyObj → Dict → σ → Except PyExn Unit × σ) (agent : σ) :
    (doListen (some p) json parse (List.replicate n false) ⟨⟨[], events⟩, agent, [], []⟩).calls =
      commandsOf json (delivered events) := by
  have hpending := listenLoop_pending json parse n ⟨⟨[], events⟩, agent, [], []⟩
  have hcommands := listenLoop_commands json parse (List.replicate n false)
    ⟨⟨[], events⟩, agent, [], []⟩
  rw [Nat.sub_eq_zero_of_le hn] at hpending
  rwa [commandsOf_of_pending json hpending, List.append_nil] at hcommands

/-- The agent's own `parseCommand`, each command in an environment of its own. -/
def parseIn (p : Platform) (cmd : PyObj) (args : Dict) (s : AgentState × (ℕ → Env)) :
    Except PyExn Unit × AgentState × (ℕ → Env) :=
  let r := (parseCommand cmd args).run (handle p (s.2 0)) { s.1 with calls := 0 }
  (r.1, r.2, fun n ↦ s.2 (n + 1))

/-- The commands as operations of the agent. -/
def commandRun : List (PyObj × Dict) → (ℕ → Env) → List (Op × Env)
  | [], _ => []
  | command :: commands, envs =>
    (.command command.1 command.2, envs 0) :: commandRun commands fun n ↦ envs (n + 1)

theorem parseAll_parseIn (p : Platform) (config : Config) (sys : System) (envs : ℕ → Env)
    (commands : List (PyObj × Dict)) :
    (parseAll (parseIn p) (sys.agent, envs) commands).1 =
      (sys.exec p config (commandRun commands envs)).agent := by
  induction commands generalizing sys envs with
  | nil => rfl
  | cons command commands ih =>
    have hstep := step_command p config sys (envs 0) command.1 command.2
    rw [commandRun, System.exec, List.foldl_cons, ← System.exec, ← ih, hstep]
    rfl

/-- **The agent that listens runs the commands of the stream**, one after the other. -/
theorem doListen_agent {events : List ReadEvent} {n : ℕ} (hn : Reader.pending ⟨[], events⟩ ≤ n)
    (json : Json) (p : Platform) (config : Config) (sys : System) (envs : ℕ → Env) :
    (doListen (some p) json (parseIn p) (List.replicate n false)
      ⟨⟨[], events⟩, (sys.agent, envs), [], []⟩).agent.1 =
        (sys.exec p config (commandRun (commandsOf json (delivered events)) envs)).agent := by
  have hcalls := doListen_calls hn json p (parseIn p) (sys.agent, envs)
  obtain ⟨commands, hcommands, hagent⟩ := listenLoop_agent json (parseIn p)
    (List.replicate n false) ⟨⟨[], events⟩, (sys.agent, envs), [], []⟩
  rw [doListen] at hcalls ⊢
  rw [hagent, ← hcalls, hcommands, List.nil_append]
  exact parseAll_parseIn p config sys envs commands

end GuestAgent
