import GuestAgent.Channel.Interrupted

/-!
# The port on Windows

`WinFile` is the stream behind the channel on Windows.  It catches every exception: a read that
fails returns nothing, and a write that fails returns 0, as if nothing had been taken.  So a message
is never given up halfway, and the loop of `VirtIoChannel.write` goes on until the port has taken it
all (`outcome_eq_iff`), however long that may be.

What the port has taken by then is another matter.  A write that fails after some of its bytes were
transferred is repeated from its start.  `port_eq_iff` says over any run of messages that what is on
the port is what the agent takes for written exactly when no failing write has transferred
anything, and `lines_port` that the host then receives the messages, each once and in order.
-/

set_option autoImplicit false

namespace GuestAgent

/-- How the calls of Windows in `WinFile.write` go. -/
inductive PortWrite where
  /-- So many bytes are transferred, says `GetOverlappedResult`. -/
  | transferred (n : ℕ)
  /-- `WriteFile` or `GetOverlappedResult` raises, after so many bytes. -/
  | failed (n : ℕ)
  deriving DecidableEq, Repr

namespace PortWrite

/-- What `WinFile.write` returns. -/
def returned : PortWrite → ℕ
  | transferred n => n
  | failed _ => 0

/-- How many bytes are on the port afterwards. -/
def bytes : PortWrite → ℕ
  | transferred n | failed n => n

/-- What `VirtIoChannel.write` sees of it. -/
def seen (e : PortWrite) : WriteEvent := .accepted e.returned

/-- What the calls return together. -/
def total : List PortWrite → ℕ
  | [] => 0
  | e :: events => e.returned + total events

end PortWrite

/-- What the loop of `write` leaves on the port. -/
def onPort : Bytes → List PortWrite → Bytes
  | [], _ => []
  | _, [] => []
  | message, e :: events => message.take e.bytes ++ onPort (message.drop e.returned) events

/-- No call that fails has transferred anything. -/
def CleanWrites : Bytes → List PortWrite → Prop
  | [], _ => True
  | _, [] => True
  | message, .transferred n :: events => CleanWrites (message.drop n) events
  | message, .failed n :: events => n = 0 ∧ CleanWrites message events

/-- A call of `VirtIoChannel.write`, and how the calls of `WinFile.write` in it go. -/
structure WinAttempt where
  name : PyObj
  args : PyObj
  events : List PortWrite

namespace WinAttempt

variable (locale : Locale) (json : Json) (a : WinAttempt)

/-- As the channel sees it. -/
def seen : Attempt := ⟨a.name, a.args, a.events.map PortWrite.seen⟩

/-- What is offered to the port. -/
def message : Bytes :=
  match encodeMessage locale json a.name a.args with
  | .ok message => message
  | .error _ => []

/-- It has returned or raised, and the thread goes on. -/
def Ends : Prop := ((a.seen.written locale json).outcome ≠ none)

instance : Decidable (a.Ends locale json) := inferInstanceAs (Decidable (_ ≠ none))

end WinAttempt

section Runs

variable (locale : Locale) (json : Json)

/-- What is on the port after some calls of `write`, one after the other. -/
def port : List WinAttempt → Bytes
  | [] => []
  | a :: attempts => onPort (a.message locale json) a.events ++
      if a.Ends locale json then port attempts else []

/-- What the agent takes for written. -/
def believed : List WinAttempt → Bytes
  | [] => []
  | a :: attempts => (a.seen.written locale json).taken ++
      if a.Ends locale json then believed attempts else []

/-- The texts of the messages that were written. -/
def writtenTexts : List WinAttempt → List Bytes
  | [] => []
  | a :: attempts =>
    (if a.seen.succeeds locale json then [a.seen.text locale json] else []) ++
      if a.Ends locale json then writtenTexts attempts else []

/-- No call that fails has transferred anything. -/
def CleanRun : List WinAttempt → Prop
  | [] => True
  | a :: attempts => CleanWrites (a.message locale json) a.events ∧
      (a.Ends locale json → CleanRun attempts)

end Runs

/-! ## One message -/

section Message

variable {message : Bytes} {events : List PortWrite}

/-- **A write returns once the port has taken it all**, and never raises. -/
theorem outcome_eq_iff (message : Bytes) (events : List PortWrite) :
    (writeLoop message (events.map PortWrite.seen)).outcome =
      if message.length ≤ PortWrite.total events then some (.ok ()) else none := by
  induction events generalizing message with
  | nil =>
    cases message with
    | nil => rfl
    | cons x message => rfl
  | cons e events ih =>
    cases message with
    | nil => exact (if_pos (Nat.zero_le _)).symm
    | cons x message =>
      rw [List.map_cons, PortWrite.seen, writeLoop, PortWrite.total]
      · dsimp only
        rw [ih, List.length_drop]
        exact if_congr Nat.sub_le_iff_le_add' rfl rfl
      · exact List.cons_ne_nil _ _

theorem taken_cons (hne : message ≠ []) (n : ℕ) :
    (writeLoop message (.accepted n :: events.map PortWrite.seen)).taken =
      message.take n ++ (writeLoop (message.drop n) (events.map PortWrite.seen)).taken := by
  rw [writeLoop]
  exact hne

/-- Where a failing call has transferred something, there is more on the port than was meant. -/
theorem onPort_cases (message : Bytes) (events : List PortWrite) :
    CleanWrites message events ∧
        onPort message events = (writeLoop message (events.map PortWrite.seen)).taken ∨
      ¬ CleanWrites message events ∧
        (writeLoop message (events.map PortWrite.seen)).taken.length <
          (onPort message events).length := by
  induction events generalizing message with
  | nil => cases message <;> exact .inl ⟨trivial, rfl⟩
  | cons e events ih =>
    by_cases hne : message = []
    · rw [hne]
      exact .inl ⟨trivial, rfl⟩
    · rw [List.map_cons, PortWrite.seen, taken_cons hne]
      cases e with
      | transferred n =>
        have hport : onPort message (.transferred n :: events) =
            message.take n ++ onPort (message.drop n) events := by
          rw [onPort, PortWrite.bytes, PortWrite.returned]
          exact hne
        have hclean : CleanWrites message (.transferred n :: events) ↔
            CleanWrites (message.drop n) events := by
          rw [CleanWrites]
          exact hne
        rw [hport, hclean, PortWrite.returned]
        refine (ih (message.drop n)).imp (And.imp_right fun h ↦ by rw [h])
          (And.imp_right fun h ↦ ?_)
        rw [List.length_append, List.length_append]
        exact Nat.add_lt_add_left h _
      | failed n =>
        have hport : onPort message (.failed n :: events) =
            message.take n ++ onPort message events := by
          rw [onPort, PortWrite.bytes, PortWrite.returned, List.drop_zero]
          exact hne
        have hclean : CleanWrites message (.failed n :: events) ↔
            n = 0 ∧ CleanWrites message events := by
          rw [CleanWrites]
          exact hne
        rw [hport, hclean, PortWrite.returned, List.take_zero, List.drop_zero, List.nil_append]
        rcases Nat.eq_zero_or_pos n with rfl | hn
        · rw [List.take_zero, List.nil_append, and_iff_right rfl]
          exact ih message
        · -- the call is made again from its start
          refine .inr ⟨fun h ↦ absurd h.1 hn.ne', ?_⟩
          have hle : (writeLoop message (events.map PortWrite.seen)).taken.length ≤
              (onPort message events).length := by
            rcases ih message with ⟨-, h⟩ | ⟨-, h⟩
            · rw [h]
            · exact h.le
          have hpos := List.length_pos_iff.mpr hne
          rw [List.length_append, List.length_take]
          omega

end Message

/-! ## A run of messages -/

section Run

variable {locale : Locale} {json : Json} {a : WinAttempt} {attempts : List WinAttempt}

theorem taken_seen (a : WinAttempt) : (a.seen.written locale json).taken =
    (writeLoop (a.message locale json) (a.events.map PortWrite.seen)).taken := by
  have hnil (events : List WriteEvent) : (writeLoop [] events).taken = [] := by rw [writeLoop]
  rw [Attempt.written, channelWrite, WinAttempt.message]
  rcases hencode : encodeMessage locale json a.name a.args with e | message <;>
    rw [show encodeMessage locale json a.seen.name a.seen.args = _ from hencode]
  · exact (hnil _).symm
  · rfl

theorem port_cases (attempts : List WinAttempt) :
    CleanRun locale json attempts ∧ port locale json attempts = believed locale json attempts ∨
      ¬ CleanRun locale json attempts ∧
        (believed locale json attempts).length < (port locale json attempts).length := by
  induction attempts with
  | nil => exact .inl ⟨trivial, rfl⟩
  | cons a attempts ih =>
    rw [CleanRun, port, believed, taken_seen]
    by_cases hends : a.Ends locale json
    · rw [if_pos hends, if_pos hends, imp_iff_right hends]
      rcases onPort_cases (a.message locale json) a.events with ⟨hclean, ha⟩ | ⟨hclean, ha⟩
      · rw [ha, and_iff_right hclean]
        refine ih.imp (And.imp_right fun h ↦ by rw [h]) (And.imp_right fun h ↦ ?_)
        rw [List.length_append, List.length_append]
        exact Nat.add_lt_add_left h _
      · refine .inr ⟨fun h ↦ hclean h.1, ?_⟩
        have hle : (believed locale json attempts).length ≤ (port locale json attempts).length := by
          rcases ih with ⟨-, h⟩ | ⟨-, h⟩
          · rw [h]
          · exact h.le
        rw [List.length_append, List.length_append]
        omega
    · rw [if_neg hends, if_neg hends, List.append_nil, List.append_nil,
        and_iff_left fun h ↦ absurd h hends]
      exact onPort_cases ..

/-- **What is on the port**, after any run of messages: what the agent takes for written, exactly
when no failing write has transferred anything. -/
theorem port_eq_iff (locale : Locale) (json : Json) (attempts : List WinAttempt) :
    port locale json attempts = believed locale json attempts ↔ CleanRun locale json attempts := by
  rcases port_cases attempts with ⟨hclean, h⟩ | ⟨hclean, h⟩
  · exact iff_of_true h hclean
  · exact iff_of_false (fun heq ↦ (heq ▸ h).false) hclean

/-- A write that is not to be repeated has returned, or there was nothing to write. -/
theorem taken_of_ends (hends : a.Ends locale json) (hfail : a.seen.succeeds locale json = false) :
    (a.seen.written locale json).taken = [] := by
  have hloop (message : Bytes) :
      (writeLoop message (a.events.map PortWrite.seen)).outcome ≠ none →
        (writeLoop message (a.events.map PortWrite.seen)).outcome = some (.ok ()) := by
    rw [outcome_eq_iff]
    split
    · exact fun _ ↦ rfl
    · exact fun h ↦ absurd rfl h
  have hnot : (a.seen.written locale json).outcome ≠ some (.ok ()) := by
    rw [Ne, outcome_iff_succeeds, hfail]
    exact Bool.false_ne_true
  rw [WinAttempt.Ends, Attempt.written, channelWrite] at hends
  rw [Attempt.written, channelWrite] at hnot ⊢
  rcases hencode : encodeMessage locale json a.seen.name a.seen.args with e | message <;>
    rw [hencode] at hends hnot
  exact absurd (hloop message hends) hnot

/-- The lines of a run, and the beginning of the message that is being written. -/
theorem exists_believed (locale : Locale) (hjson : json.OneLine) (attempts : List WinAttempt) :
    ∃ p, newline ∉ p ∧ (∀ t ∈ writtenTexts locale json attempts, newline ∉ t) ∧
      believed locale json attempts =
        (writtenTexts locale json attempts).flatMap (Framing.terminate newline) ++ p := by
  induction attempts with
  | nil => exact ⟨[], List.not_mem_nil, nofun, rfl⟩
  | cons a attempts ih =>
    obtain ⟨p, hp, htexts, hbelieved⟩ := ih
    rw [believed, writtenTexts]
    cases hsucceeds : a.seen.succeeds locale json with
    | true =>
      have hends : a.Ends locale json := by
        rw [WinAttempt.Ends, outcome_iff_succeeds.mpr hsucceeds]
        nofun
      obtain ⟨htext, htaken⟩ := taken_of_succeeds hjson hsucceeds
      rw [if_pos hends, if_pos rfl, if_pos hends, htaken, hbelieved]
      exact ⟨p, hp, List.forall_mem_cons.mpr ⟨htext, htexts⟩, (List.append_assoc ..).symm⟩
    | false =>
      rw [if_neg Bool.false_ne_true, List.nil_append]
      by_cases hends : a.Ends locale json
      · rw [if_pos hends, if_pos hends, taken_of_ends hends hsucceeds, hbelieved]
        exact ⟨p, hp, htexts, rfl⟩
      · rw [if_neg hends, if_neg hends, List.append_nil]
        exact ⟨_, newline_notMem_taken hjson hsucceeds, nofun, rfl⟩

/-- **What the host receives** then: the messages that were written, each once and in order. -/
theorem lines_port (hjson : json.OneLine) (h : CleanRun locale json attempts) :
    Framing.lines newline (port locale json attempts) = writtenTexts locale json attempts := by
  obtain ⟨p, hp, htexts, hbelieved⟩ := exists_believed locale hjson attempts
  rcases port_cases attempts with ⟨-, hport⟩ | ⟨hdirty, -⟩
  · rw [hport, hbelieved]
    exact Framing.lines_terminate htexts hp
  · exact absurd h hdirty

end Run

/-- A message that the port takes whole, before the call fails, is there twice. -/
example : Framing.lines newline (port .ascii (.bare "session-lock")
    [⟨.str (.str (ascii "session-lock")), .dict [], [.failed 100, .transferred 100]⟩]) =
      [bareLine "session-lock", bareLine "session-lock"] := by decide +kernel

end GuestAgent
