import GuestAgent.Channel.VirtIo

/-!
# Writes that are interrupted

When `stream.write` raises halfway through a message, what is left of the message is forgotten with
the local variable that held it, and what was taken of it stays on the stream.  The thread that
listens catches the exception, and the agent goes on to the next message.

The receiver knows nothing of this.  It cuts the stream at newlines, and takes the beginning of the
interrupted message and the next message for one line.  `delivered_iff` says when the messages that
were written whole are received as what they are: as long as none of them comes after one that was
interrupted halfway.
-/

set_option autoImplicit false

namespace GuestAgent

/-- The JSON library dumps an object as a byte string of one line. -/
def Json.OneLine (json : Json) : Prop :=
  ∀ o text, json.dumps o = .ok text → ∃ line, text = .str line ∧ newline ∉ line

/-- A call of `write`, and how the calls of `stream.write` in it go. -/
structure Attempt where
  name : PyObj
  args : PyObj
  events : List WriteEvent

namespace Attempt

variable (locale : Locale) (json : Json)

/-- What the call does. -/
def written (a : Attempt) : Written := channelWrite locale json a.name a.args a.events

/-- Does the call return? -/
def succeeds (a : Attempt) : Bool :=
  match (a.written locale json).outcome with
  | some (.ok ()) => true
  | _ => false

/-- The call was interrupted halfway: it did not return, and part of the message was taken. -/
def Halfway (a : Attempt) : Prop :=
  a.succeeds locale json = false ∧ (a.written locale json).taken ≠ []

/-- The JSON text of the message: what the newline is put after. -/
def text (a : Attempt) : Bytes :=
  match encodeMessage locale json a.name a.args with
  | .ok message => message.dropLast
  | .error _ => []

end Attempt

section Stream

variable (locale : Locale) (json : Json)

/-- What is on the stream after some calls of `write`. -/
def streamOf (attempts : List Attempt) : Bytes :=
  attempts.flatMap fun a ↦ (a.written locale json).taken

/-- The texts of the messages that were written whole. -/
def wholeTexts (attempts : List Attempt) : List Bytes :=
  (attempts.filter (Attempt.succeeds locale json)).map (Attempt.text locale json)

/-- Every message that was written whole is received as a line of its own, in order. -/
def Delivered (attempts : List Attempt) : Prop :=
  (wholeTexts locale json attempts).Sublist (Framing.lines newline (streamOf locale json attempts))

end Stream

/-! ## What a call leaves on the stream -/

/-- What `write` offers to the stream is a line. -/
theorem encodeMessage_line {locale : Locale} {json : Json} (hjson : json.OneLine)
    {name args : PyObj} {message : Bytes}
    (h : encodeMessage locale json name args = .ok message) :
    ∃ line, newline ∉ line ∧ message = Framing.terminate newline line := by
  rw [encodeMessage.eq_def] at h
  split at h
  · rename_i name args
    dsimp only at h
    rcases hdumps : json.dumps
      (filterObject locale (.dict (Dict.set nameKey (.str (.str name)) args))) with e | text <;>
      rw [hdumps] at h
    · cases h
    · obtain ⟨line, rfl, hline⟩ := hjson _ _ hdumps
      have hencode : (if (line ++ [newline]).all (· < 128) then Except.ok (line ++ [newline])
        else .error PyExn.unicodeError) = Except.ok message := h
      split at hencode
      · cases hencode
        exact ⟨line, hline, rfl⟩
      · cases hencode
  · cases h

/-- A call that does not return leaves part of the message. -/
theorem left_ne_nil_of_not_ended {message : Bytes} {events : List WriteEvent}
    (h : (writeLoop message events).outcome ≠ some (.ok ())) :
    (writeLoop message events).left ≠ [] := by
  induction message, events using writeLoop.induct with
  | case1 events => exact absurd (by rw [writeLoop]) h
  | case2 message hne =>
    obtain ⟨x, message, rfl⟩ := List.exists_cons_of_ne_nil hne
    exact List.cons_ne_nil _ _
  | case3 message e events hne =>
    obtain ⟨x, message, rfl⟩ := List.exists_cons_of_ne_nil hne
    exact List.cons_ne_nil _ _
  | case4 message n events hne ih =>
    rw [writeLoop] at h ⊢
    exacts [ih h, hne, hne]

section Attempts

variable {locale : Locale} {json : Json} {a : Attempt} {attempts : List Attempt} {rest : Bytes}

theorem outcome_iff_succeeds :
    (a.written locale json).outcome = some (.ok ()) ↔ a.succeeds locale json = true := by
  rw [Attempt.succeeds]
  rcases (a.written locale json).outcome with _ | (_ | ⟨⟨⟩⟩) <;> simp

/-- A call that returns puts a line on the stream. -/
theorem taken_of_succeeds (hjson : json.OneLine) (h : a.succeeds locale json = true) :
    newline ∉ a.text locale json ∧
      (a.written locale json).taken = Framing.terminate newline (a.text locale json) := by
  rw [← outcome_iff_succeeds] at h
  rw [Attempt.written, channelWrite] at h ⊢
  rw [Attempt.text]
  rcases hencode : encodeMessage locale json a.name a.args with e | message <;>
    rw [hencode] at h
  · cases h
  · obtain ⟨line, hline, rfl⟩ := encodeMessage_line hjson hencode
    have htext : (Framing.terminate newline line).dropLast = line := List.dropLast_concat
    dsimp only at h ⊢
    rw [htext, taken_of_ended h]
    exact ⟨hline, rfl⟩

/-- A call that does not return puts no newline on the stream. -/
theorem newline_notMem_taken (hjson : json.OneLine) (h : a.succeeds locale json = false) :
    newline ∉ (a.written locale json).taken := by
  have houtcome : (a.written locale json).outcome ≠ some (.ok ()) := by
    rw [Ne, outcome_iff_succeeds, h]
    exact Bool.false_ne_true
  rw [Attempt.written, channelWrite] at houtcome ⊢
  rcases hencode : encodeMessage locale json a.name a.args with e | message <;>
    rw [hencode] at houtcome
  · exact List.not_mem_nil
  · obtain ⟨line, hline, rfl⟩ := encodeMessage_line hjson hencode
    dsimp only at houtcome ⊢
    have hleft := left_ne_nil_of_not_ended houtcome
    have hdrop : (writeLoop (Framing.terminate newline line) a.events).taken ++
        (writeLoop (Framing.terminate newline line) a.events).left.dropLast = line := by
      rw [← List.dropLast_append_of_ne_nil hleft, taken_append_left, Framing.terminate,
        List.dropLast_concat]
    exact fun hmem ↦ hline (hdrop ▸ List.mem_append_left _ hmem)

/-! ## What is received -/

/-- The lines on the stream after some calls of `write`, with `rest` on it before them. -/
def receivedLines (locale : Locale) (json : Json) : Bytes → List Attempt → List Bytes
  | _, [] => []
  | rest, a :: attempts =>
    if a.succeeds locale json then
      (rest ++ a.text locale json) :: receivedLines locale json [] attempts
    else receivedLines locale json (rest ++ (a.written locale json).taken) attempts

theorem lines_streamOf (hjson : json.OneLine) (rest : Bytes) (hrest : newline ∉ rest) :
    Framing.lines newline (rest ++ streamOf locale json attempts) =
      receivedLines locale json rest attempts := by
  induction attempts generalizing rest with
  | nil => rw [streamOf, List.flatMap_nil, List.append_nil, Framing.lines_of_notMem hrest]; rfl
  | cons a attempts ih =>
    rw [streamOf, List.flatMap_cons, ← streamOf, ← List.append_assoc, receivedLines]
    cases hsucceeds : a.succeeds locale json with
    | true =>
      obtain ⟨htext, htaken⟩ := taken_of_succeeds hjson hsucceeds
      have hline : newline ∉ rest ++ a.text locale json :=
        fun h ↦ (List.mem_append.mp h).elim hrest htext
      rw [if_pos rfl, htaken, Framing.terminate, ← List.append_assoc, List.append_assoc,
        List.singleton_append, Framing.lines_append_sep hline]
      exact congrArg (List.cons _) (ih [] List.not_mem_nil)
    | false =>
      have htaken := newline_notMem_taken hjson hsucceeds
      rw [if_neg Bool.false_ne_true]
      exact ih _ fun h ↦ (List.mem_append.mp h).elim hrest htaken

/-- There are as many lines as messages written whole. -/
theorem length_receivedLines (locale : Locale) (json : Json) (rest : Bytes)
    (attempts : List Attempt) :
    (receivedLines locale json rest attempts).length =
      (wholeTexts locale json attempts).length := by
  induction attempts generalizing rest with
  | nil => rfl
  | cons a attempts ih =>
    rw [receivedLines, wholeTexts, List.filter_cons]
    split
    · rw [List.length_cons, ih, List.map_cons, List.length_cons, ← wholeTexts]
    · rw [ih, ← wholeTexts]

/-- No message of the calls is written whole. -/
def NoneWhole (locale : Locale) (json : Json) (attempts : List Attempt) : Prop :=
  ∀ a ∈ attempts, a.succeeds locale json = false

theorem receivedLines_eq_iff (locale : Locale) (json : Json) (rest : Bytes)
    (attempts : List Attempt) :
    receivedLines locale json rest attempts = wholeTexts locale json attempts ↔
      (rest ≠ [] → NoneWhole locale json attempts) ∧
        attempts.Pairwise fun a b ↦ a.Halfway locale json → b.succeeds locale json = false := by
  induction attempts generalizing rest with
  | nil => simp [receivedLines, wholeTexts, NoneWhole]
  | cons a attempts ih =>
    rw [receivedLines, wholeTexts, List.filter_cons, List.pairwise_cons]
    cases hsucceeds : a.succeeds locale json with
    | true =>
      have hhalfway : ¬ a.Halfway locale json := fun h ↦ by
        rw [Attempt.Halfway, hsucceeds] at h
        cases h.1
      have hnone : ¬ NoneWhole locale json (a :: attempts) := fun h ↦ by
        cases (h a List.mem_cons_self).symm.trans hsucceeds
      rw [if_pos rfl, if_pos rfl, List.map_cons, ← wholeTexts, List.cons.injEq, ih,
        List.append_left_eq_self]
      constructor
      · rintro ⟨rfl, -, hlater⟩
        exact ⟨fun h ↦ absurd rfl h, fun b _ h ↦ absurd h hhalfway, hlater⟩
      · rintro ⟨hrest, -, hlater⟩
        exact ⟨by_contra fun h ↦ hnone (hrest h), fun h ↦ absurd rfl h, hlater⟩
    | false =>
      have hhalfway : a.Halfway locale json ↔ (a.written locale json).taken ≠ [] := by
        rw [Attempt.Halfway, hsucceeds, and_iff_right rfl]
      have hnone : NoneWhole locale json (a :: attempts) ↔ NoneWhole locale json attempts :=
        List.forall_mem_cons.trans (and_iff_right hsucceeds)
      have hrest : rest ++ (a.written locale json).taken ≠ [] ↔
          rest ≠ [] ∨ a.Halfway locale json := by
        rw [hhalfway, Ne, List.append_eq_nil_iff, not_and_or]
      rw [if_neg Bool.false_ne_true, if_neg Bool.false_ne_true, ← wholeTexts, ih, hnone, hrest,
        or_imp, and_assoc]
      refine and_congr_right fun _ ↦ and_congr_left fun _ ↦ ?_
      exact ⟨fun h b hb ha ↦ h ha b hb, fun h ha b hb ↦ h b hb ha⟩

/-- **Messages that are delivered.**  The messages that are written whole are received as lines of
their own as long as none of them comes after one that was interrupted halfway. -/
theorem delivered_iff (hjson : json.OneLine) (attempts : List Attempt) :
    Delivered locale json attempts ↔ attempts.Pairwise fun a b ↦
      a.Halfway locale json → b.succeeds locale json = false := by
  have hlines : Framing.lines newline (streamOf locale json attempts) =
      receivedLines locale json [] attempts := lines_streamOf hjson [] List.not_mem_nil
  have hlength := length_receivedLines locale json [] attempts
  have hiff := receivedLines_eq_iff locale json [] attempts
  rw [and_iff_right (absurd rfl)] at hiff
  rw [Delivered, hlines, ← hiff]
  constructor
  · exact fun h ↦ (h.eq_of_length hlength.symm).symm
  · intro h
    rw [h]

end Attempts

/-- A `session-lock` message. -/
def lockAttempt (events : List WriteEvent) : Attempt :=
  ⟨.str (.str (ascii "session-lock")), .dict [], events⟩

theorem oneLine_bare {name : String} (h : newline ∉ bareLine name) : (Json.bare name).OneLine := by
  rintro o text ⟨⟩
  exact ⟨bareLine name, rfl, h⟩

/-- Nothing was taken of the first message, and the second one is delivered. -/
theorem delivered_retried : Delivered .ascii (.bare "session-lock")
    [lockAttempt [.raised .osError], lockAttempt [.accepted 10, .accepted 100]] := by
  refine (delivered_iff (oneLine_bare (by decide +kernel)) _).mpr (List.pairwise_pair.mpr ?_)
  rintro ⟨-, htaken⟩
  exact absurd rfl htaken

/-- Ten bytes were taken of the first message, and the second one comes after them on the line. -/
theorem not_delivered : ¬ Delivered .ascii (.bare "session-lock")
    [lockAttempt [.accepted 10, .raised .osError], lockAttempt [.accepted 100]] := by
  intro h
  have hpair := List.pairwise_pair.mp
    ((delivered_iff (oneLine_bare (by decide +kernel)) _).mp h)
  have hlost := hpair ⟨by decide +kernel, by decide +kernel⟩
  exact absurd hlost (by decide +kernel)

end GuestAgent
