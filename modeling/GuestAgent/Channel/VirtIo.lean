import GuestAgent.Channel.Filter
import GuestAgent.Library.Framing

/-!
# The virtio channel

A `VirtIoChannel` carries messages over a byte stream, a line of JSON for each.  The stream behind
it promises little: `stream.write` may take less than it is offered, and `stream.read` returns what
has arrived so far, which is nothing at all where no one listens at the other end.

What the stream does is the input of the model.  A `WriteEvent` is how one call of `stream.write`
goes and a `ReadEvent` how one call of `stream.read` does; `writeLoop` and `readline` are the loops
of `write` and `_readline` over lists of them.  Where a list ends before the loop does, the channel
is still waiting, which is no outcome.

The JSON library is a parameter, `Json`.
-/

set_option autoImplicit false

namespace GuestAgent

/-- The functions of the JSON library. -/
structure Json where
  dumps : PyObj → Except PyExn PyStr
  loads : Text → Except PyExn PyObj

/-- `'\n'`. -/
def newline : UInt8 := 0x0A

/-- The key under which a message has its name. -/
def nameKey : PyStr := key "__name__"

/-- The line of a message without arguments. -/
def bareLine (name : String) : Bytes := 
  ascii "\x7b\"__name__\": \"" ++ ascii name ++ ascii "\"\x7d"

/-- A JSON library, as far as it is needed for one message without arguments. -/
def Json.bare (name : String) : Json where
  dumps _ := .ok (.str (bareLine name))
  loads t :=
    if t = (bareLine name).map UInt8.toNat then
      .ok (.dict [(.unicode (u "__name__"), .ofString name)])
    else .error .valueError

/-! ## Writing -/

/-- How a call of `stream.write` goes. -/
inductive WriteEvent where
  /-- It takes so many bytes of what it is offered. -/
  | accepted (n : ℕ)
  | raised (e : PyExn)
  deriving DecidableEq, Repr

/-- What `write` has done: the bytes the stream has taken, the ones it has yet to take, and whether
`write` has returned or raised. -/
structure Written where
  taken : Bytes
  left : Bytes
  outcome : Option (Except PyExn Unit)

/-- The loop of `write`. -/
def writeLoop : Bytes → List WriteEvent → Written
  | [], _ => ⟨[], [], some (.ok ())⟩
  | message, [] => ⟨[], message, none⟩
  | message, .raised e :: _ => ⟨[], message, some (.error e)⟩
  | message, .accepted n :: events =>
    let w := writeLoop (message.drop n) events
    { w with taken := message.take n ++ w.taken }

/-- `s + '\n'`. -/
def addNewline : PyStr → PyStr
  | .str b => .str (b ++ [newline])
  | .unicode t => .unicode (t ++ [newline.toNat])

/-- What `write` does before its loop. -/
def encodeMessage (locale : Locale) (json : Json) : PyObj → PyObj → Except PyExn Bytes
  | name@(.str (.str _)), .dict args => do
    let args := filterObject locale (.dict (Dict.set nameKey name args))
    let text ← json.dumps args
    (PyObj.str (addNewline text)).encode
  | _, _ => .error .typeError

/-- `VirtIoChannel.write`. -/
def channelWrite (locale : Locale) (json : Json) (name args : PyObj) (events : List WriteEvent) :
    Written :=
  match encodeMessage locale json name args with
  | .ok message => writeLoop message events
  | .error e => ⟨[], [], some (.error e)⟩

/-! ## Reading -/

/-- How a call of `stream.read` goes. -/
inductive ReadEvent where
  /-- It returns `chunk`, which may be empty. -/
  | data (chunk : Bytes)
  | raised (e : PyExn)
  deriving DecidableEq, Repr

/-- The reading side of a channel: its `_buffer`, and what the stream has yet to do. -/
@[ext] structure Reader where
  buffer : Bytes
  events : List ReadEvent
  deriving DecidableEq, Repr

/-- `_readline`: what it returns or raises, and the channel then. -/
def readlineFrom (buffer : Bytes) (events : List ReadEvent) :
    Option (Except PyExn Bytes) × Reader :=
  match Framing.cut newline buffer with
  | some (line, rest) => (some (.ok line), ⟨rest, events⟩)
  | none =>
    match events with
    | [] => (none, ⟨buffer, []⟩)
    | .data chunk :: events => readlineFrom (buffer ++ chunk) events
    | .raised e :: events => (some (.error e), ⟨buffer, events⟩)

/-- `_readline`. -/
def readline (r : Reader) : Option (Except PyExn Bytes) × Reader := readlineFrom r.buffer r.events

/-- `_parseLine`, which gives `(None, None)` where there is no message in the line. -/
def parseLine (json : Json) (line : Bytes) : Option (PyObj × Dict) :=
  match (decodeUtf8 line).map json.loads with
  | some (.ok (.dict args)) => (Dict.get? nameKey args).map fun name ↦ (name, Dict.del nameKey args)
  | _ => none

/-- `VirtIoChannel.read`. -/
def channelRead (json : Json) (r : Reader) :
    Option (Except PyExn (Option (PyObj × Dict))) × Reader :=
  ((readline r).1.map (Except.map (parseLine json)), (readline r).2)

/-! ## What becomes of a message without arguments -/

theorem loads_bare (name : String) : (Json.bare name).loads ((bareLine name).map UInt8.toNat) =
    .ok (.dict [(.unicode (u "__name__"), .ofString name)]) := if_pos rfl

/-- Nothing is lost and nothing is sent twice: what the stream has taken comes before what is left.
-/
theorem taken_append_left (message : Bytes) (events : List WriteEvent) :
    (writeLoop message events).taken ++ (writeLoop message events).left = message := by
  induction message, events using writeLoop.induct with
  | case1 events => simp only [writeLoop, List.append_nil]
  | case2 message hne =>
    obtain ⟨x, message, rfl⟩ := List.exists_cons_of_ne_nil hne
    rfl
  | case3 message e events hne =>
    obtain ⟨x, message, rfl⟩ := List.exists_cons_of_ne_nil hne
    rfl
  | case4 message n events hne ih =>
    rw [writeLoop, List.append_assoc, ih, List.take_append_drop]
    exact hne

/-- `write` returns when nothing is left. -/
theorem left_of_ended {message : Bytes} {events : List WriteEvent}
    (h : (writeLoop message events).outcome = some (.ok ())) :
    (writeLoop message events).left = [] := by
  induction message, events using writeLoop.induct with
  | case1 events => rw [writeLoop]
  | case2 message hne =>
    obtain ⟨x, message, rfl⟩ := List.exists_cons_of_ne_nil hne
    cases h
  | case3 message e events hne =>
    obtain ⟨x, message, rfl⟩ := List.exists_cons_of_ne_nil hne
    cases h
  | case4 message n events hne ih =>
    rw [writeLoop] at h ⊢
    exacts [ih h, hne, hne]

/-- **A write that returns has sent its message**, however short the writes were. -/
theorem taken_of_ended {message : Bytes} {events : List WriteEvent}
    (h : (writeLoop message events).outcome = some (.ok ())) :
    (writeLoop message events).taken = message := by
  have htaken := taken_append_left message events
  rwa [left_of_ended h, List.append_nil] at htaken

/-! ## What a call of `_readline` does -/

/-- What calls of `stream.read` return, one after the other. -/
def delivered : List ReadEvent → Bytes
  | [] => []
  | .data chunk :: events => chunk ++ delivered events
  | .raised _ :: events => delivered events

/-- How many of them raise. -/
def failures : List ReadEvent → ℕ
  | [] => 0
  | .data _ :: events => failures events
  | .raised _ :: events => failures events + 1

/-- The bytes of the stream that have not been returned in a line. -/
def Reader.ahead (r : Reader) : Bytes := r.buffer ++ delivered r.events

/-- The lines that are still to be returned. -/
def Reader.lines (r : Reader) : List Bytes := Framing.lines newline r.ahead

/-- How many calls of `_readline` return or raise, until one waits forever. -/
def Reader.pending (r : Reader) : ℕ := r.lines.length + failures r.events

/-- **What a call of `_readline` can do.** -/
inductive Reader.Reads (r : Reader) : Option (Except PyExn Bytes) → Reader → Prop
  | line (line : Bytes) (r' : Reader) (hlines : r.lines = line :: r'.lines)
      (htail : Framing.tail newline r.ahead = Framing.tail newline r'.ahead)
      (hfailures : failures r.events = failures r'.events) : Reads r (some (.ok line)) r'
  | failed (e : PyExn) (r' : Reader) (hahead : r.ahead = r'.ahead)
      (hfailures : failures r.events = failures r'.events + 1) : Reads r (some (.error e)) r'
  | waiting (r' : Reader) (hahead : r.ahead = r'.ahead) (hevents : r'.events = [])
      (hbuffer : newline ∉ r'.buffer) (hfailures : failures r.events = 0) : Reads r none r'

/-- It depends on what is ahead only, and on how often reading fails. -/
theorem Reader.Reads.congr {r s r' : Reader} {out : Option (Except PyExn Bytes)}
    (hahead : r.ahead = s.ahead) (hfailures : failures r.events = failures s.events)
    (h : s.Reads out r') : r.Reads out r' := by
  cases h with
  | line line r' hlines htail hfail =>
    exact .line line r' (by rw [Reader.lines, hahead, ← hlines, Reader.lines])
      (by rw [hahead, htail]) (hfailures.trans hfail)
  | failed e r' hs hfail => exact .failed e r' (hahead.trans hs) (hfailures.trans hfail)
  | waiting r' hs hevents hbuffer hfail =>
    exact .waiting r' (hahead.trans hs) hevents hbuffer (hfailures.trans hfail)

/-- There is a line in the buffer. -/
theorem reads_of_cut {buffer line rest : Bytes} (events : List ReadEvent)
    (h : Framing.cut newline buffer = some (line, rest)) :
    Reader.Reads ⟨buffer, events⟩ (some (.ok line)) ⟨rest, events⟩ := by
  obtain ⟨hline, rfl⟩ := Framing.cut_eq_some_iff.mp h
  have hahead : Reader.ahead ⟨line ++ newline :: rest, events⟩ =
      line ++ newline :: Reader.ahead ⟨rest, events⟩ := by
    rw [Reader.ahead, Reader.ahead, List.append_assoc, List.cons_append]
  refine .line line _ ?_ ?_ rfl
  · rw [Reader.lines, hahead, Framing.lines_append_sep hline, Reader.lines]
  · rw [hahead, Framing.tail_append_sep hline]

theorem readlineFrom_reads (buffer : Bytes) (events : List ReadEvent) :
    Reader.Reads ⟨buffer, events⟩ (readlineFrom buffer events).1
      (readlineFrom buffer events).2 := by
  induction events generalizing buffer with
  | nil =>
    rw [readlineFrom]
    split
    · exact reads_of_cut [] ‹_›
    · rename_i hcut
      exact .waiting _ rfl rfl (Framing.cut_eq_none_iff.mp hcut) rfl
  | cons event events ih =>
    rw [readlineFrom.eq_def]
    split
    · exact reads_of_cut _ ‹_›
    · cases event with
      | data chunk =>
        have hahead : Reader.ahead ⟨buffer, .data chunk :: events⟩ =
            Reader.ahead ⟨buffer ++ chunk, events⟩ := (List.append_assoc ..).symm
        exact Reader.Reads.congr hahead rfl (ih (buffer ++ chunk))
      | raised e => exact .failed e _ rfl rfl

theorem readline_reads (r : Reader) : r.Reads (readline r).1 (readline r).2 :=
  readlineFrom_reads r.buffer r.events

end GuestAgent
