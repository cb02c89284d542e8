import GuestAgent.Channel.VirtIo
import GuestAgent.Library.Transition
import Mathlib.Logic.Function.Basic

/-!
# Several threads writing to one channel

The worker, the listener and, on Windows, the thread that forwards session events all send through
the same `VirtIoChannel`, and nothing keeps them apart: while one of them is in the loop of `write`,
with part of its message taken by the stream, another one may call `write` too.

`Port` is the stream with the loops that are running on it.  Its steps are the ones the threads can
be interleaved at: a thread enters the loop of `write`, or it makes one call of `stream.write`,
which takes so many bytes.  `write_alone` says that a thread that runs alone does what `writeLoop`
does.

As long as no thread writes while another one's message has been taken in part, the stream is made
up of whole messages: `always_whole`.  Nothing sees to that, and `not_always_whole` is a run in
which two messages are mixed up.
-/

set_option autoImplicit false

namespace GuestAgent

open Transition

/-! ## Threads in the loop of `write` -/

/-- What a message is dumped as: a line. -/
abbrev Line := { line : Bytes // newline ∉ line }

/-- A thread in the loop of `write`: the line it is writing, the bytes the stream has taken, and the
ones left, of which there is one at least. -/
structure Writing where
  line : Line
  taken : Bytes
  left : Bytes
  taken_append_left : taken ++ left = Framing.terminate newline line
  left_ne_nil : left ≠ []

/-- A thread that enters the loop. -/
def Writing.start (line : Line) : Writing where
  line := line
  taken := []
  left := Framing.terminate newline line
  taken_append_left := rfl
  left_ne_nil := List.append_ne_nil_of_right_ne_nil _ (List.cons_ne_nil _ _)

/-- The thread after the stream has taken `n` bytes, if it is still in the loop then. -/
def Writing.put (t : Writing) (n : ℕ) : Option Writing :=
  if h : t.left.drop n = [] then none
  else some ⟨t.line, t.taken ++ t.left.take n, t.left.drop n,
    by rw [List.append_assoc, List.take_append_drop, t.taken_append_left], h⟩

/-- The stream, the threads that are in the loop of `write`, and the lines of the messages they have
finished. -/
structure Port where
  stream : Bytes
  writing : ℕ → Option Writing
  done : List Line

/-- No thread is writing, and nothing has been written. -/
def Port.init : Port := ⟨[], fun _ ↦ none, []⟩

/-- What the threads do. -/
inductive WriteStep where
  /-- Thread `i` enters the loop of `write`. -/
  | enter (i : ℕ) (line : Line)
  /-- Thread `i` calls `stream.write`, which takes `n` bytes. -/
  | put (i n : ℕ)

/-- A thread is in one loop at a time, and calls `stream.write` in the loop only. -/
def Port.step (s : Port) : WriteStep → Port
  | .enter i line =>
    match s.writing i with
    | none => { s with writing := Function.update s.writing i (some (.start line)) }
    | some _ => s
  | .put i n =>
    match s.writing i with
    | none => s
    | some t =>
      { stream := s.stream ++ t.left.take n,
        writing := Function.update s.writing i (t.put n),
        done := if t.put n = none then s.done ++ [t.line] else s.done }

/-! ## Whole messages -/

/-- The lines on the stream are the messages that were finished, each of them once, and between
messages there is nothing else. -/
structure Port.Whole (s : Port) : Prop where
  lines : (Framing.lines newline s.stream).Perm (s.done.map Subtype.val)
  rest : (∀ i, s.writing i = none) → Framing.tail newline s.stream = []

/-- Part of the message of thread `i` has been taken. -/
def Port.PartTaken (s : Port) (i : ℕ) : Prop := ∃ t, s.writing i = some t ∧ t.taken ≠ []

/-- No bytes are taken of one message while another one has been taken in part. -/
def Port.Orderly (s : Port) : WriteStep → Prop
  | .enter _ _ => True
  | .put i n => s.writing i ≠ none → 0 < n → ∀ j, j ≠ i → ¬ s.PartTaken j

/-! ## What a call of `stream.write` does -/

section Put

variable {t : Writing} {n : ℕ}

/-- A message that has not been taken whole has no newline in the part that has. -/
theorem Writing.newline_notMem_taken (t : Writing) : newline ∉ t.taken := by
  have hdrop : t.taken ++ t.left.dropLast = t.line.val := by
    rw [← List.dropLast_append_of_ne_nil t.left_ne_nil, t.taken_append_left, Framing.terminate,
      List.dropLast_concat]
  intro hmem
  exact t.line.property (hdrop ▸ List.mem_append_left _ hmem)

theorem Writing.put_zero (t : Writing) : t.put 0 = some t := by
  have hdrop : t.left.drop 0 ≠ [] := t.left_ne_nil
  rw [put, dif_neg hdrop]
  simp

/-- **A call of `stream.write`** takes the rest of the message, or some more of it. -/
theorem Writing.put_cases (t : Writing) (n : ℕ) :
    (t.put n = none ∧ t.left.drop n = [] ∧
      t.taken ++ t.left.take n = Framing.terminate newline t.line.val) ∨
    ∃ t', t.put n = some t' ∧ t'.taken = t.taken ++ t.left.take n ∧ t'.line = t.line ∧
      t'.left = t.left.drop n := by
  rw [put]
  split
  · rename_i h
    refine .inl ⟨rfl, h, ?_⟩
    rw [← t.taken_append_left, List.take_of_length_le (List.drop_eq_nil_iff.mp h)]
  · exact .inr ⟨_, rfl, rfl, rfl, rfl⟩

end Put

section Step

variable {s : Port} {i n : ℕ}

theorem step_enter (hi : s.writing i = none) (line : Line) : s.step (.enter i line) =
    { s with writing := Function.update s.writing i (some (.start line)) } := by
  rw [Port.step, hi]

theorem step_enter_busy {t : Writing} (hi : s.writing i = some t) (line : Line) :
    s.step (.enter i line) = s := by
  rw [Port.step, hi]

theorem step_put {t : Writing} (hi : s.writing i = some t) (n : ℕ) : s.step (.put i n) =
    { stream := s.stream ++ t.left.take n,
      writing := Function.update s.writing i (t.put n),
      done := if t.put n = none then s.done ++ [t.line] else s.done } := by
  rw [Port.step, hi]

theorem step_put_none (hi : s.writing i = none) (n : ℕ) : s.step (.put i n) = s := by
  rw [Port.step, hi]

end Step

/-! ## The invariant -/

/-- The part of a message that is on the stream after the whole ones: that of the one thread whose
message has been taken in part, if there is one. -/
inductive Port.Part (w : ℕ → Option Writing) : Bytes → Prop
  | nothing (h : ∀ j t, w j = some t → t.taken = []) : Part w []
  | ofThread (i : ℕ) (t : Writing) (hi : w i = some t)
      (h : ∀ j t', j ≠ i → w j = some t' → t'.taken = []) : Part w t.taken

/-- The messages that were finished are on the stream in the order they were, and a part of one
more. -/
def Port.Inv (s : Port) : Prop :=
  ∃ part, Port.Part s.writing part ∧
    s.stream = (s.done.map Subtype.val).flatMap (Framing.terminate newline) ++ part

theorem inv_port_init : Port.init.Inv := ⟨[], .nothing nofun, rfl⟩

section Inv

variable {s : Port} {i n : ℕ} {w : ℕ → Option Writing} {part : Bytes} {t : Writing}

theorem part_enter (hi : w i = none) (line : Line) (h : Port.Part w part) :
    Port.Part (Function.update w i (some (.start line))) part := by
  have hupdate : ∀ j t', Function.update w i (some (.start line)) j = some t' →
      t'.taken = [] ∨ w j = some t' := by
    intro j t' hj
    by_cases hji : j = i
    · subst hji
      rw [Function.update_self] at hj
      cases hj
      exact .inl rfl
    · rw [Function.update_of_ne hji] at hj
      exact .inr hj
  cases h with
  | nothing hnone => exact .nothing fun j t' hj ↦ (hupdate j t' hj).elim id (hnone j t')
  | ofThread i' t hi' hother =>
    have hne : i' ≠ i := by
      rintro rfl
      cases hi.symm.trans hi'
    refine .ofThread i' t (by rw [Function.update_of_ne hne, hi']) fun j t' hji hj ↦ ?_
    exact (hupdate j t' hj).elim id (hother j t' hji)

/-- With no other message taken in part, the part on the stream is that of thread `i`. -/
theorem part_eq_taken (h : Port.Part w part) (hi : w i = some t)
    (hother : ∀ j t', j ≠ i → w j = some t' → t'.taken = []) : part = t.taken := by
  cases h with
  | nothing hnone => exact (hnone i t hi).symm
  | ofThread i' t' hi' hother' =>
    by_cases hii : i' = i
    · subst hii
      cases hi.symm.trans hi'
      rfl
    · rw [hother i' t' hii hi', hother' i t (Ne.symm hii) hi]

/-- Thread `i` goes on, or ends, while no other message has been taken in part. -/
theorem part_update (hother : ∀ j t', j ≠ i → w j = some t' → t'.taken = [])
    (x : Option Writing) :
    Port.Part (Function.update w i x) (x.elim [] Writing.taken) := by
  have hother' : ∀ j t', j ≠ i → Function.update w i x j = some t' → t'.taken = [] := by
    intro j t' hji hj
    rw [Function.update_of_ne hji] at hj
    exact hother j t' hji hj
  rcases x with _ | t
  · refine .nothing fun j t' hj ↦ hother' j t' ?_ hj
    rintro rfl
    rw [Function.update_self] at hj
    cases hj
  · exact .ofThread i t (Function.update_self ..) hother'

theorem inv_enter (h : s.Inv) (i : ℕ) (line : Line) : (s.step (.enter i line)).Inv := by
  rcases hi : s.writing i with _ | t
  · obtain ⟨part, hpart, hstream⟩ := h
    rw [step_enter hi]
    exact ⟨part, part_enter hi line hpart, hstream⟩
  · rwa [step_enter_busy hi]

theorem inv_put (h : s.Inv) (horderly : s.Orderly (.put i n)) : (s.step (.put i n)).Inv := by
  rcases hi : s.writing i with _ | t
  · rwa [step_put_none hi]
  · rw [step_put hi]
    obtain ⟨part, hpart, hstream⟩ := h
    rcases Nat.eq_zero_or_pos n with rfl | hn
    · -- nothing is taken, and nothing changes
      have hupdate : Function.update s.writing i (some t) = s.writing := by
        rw [← hi, Function.update_eq_self]
      rw [t.put_zero, hupdate, if_neg (Option.some_ne_none t), List.take_zero, List.append_nil]
      exact ⟨part, hpart, hstream⟩
    · have hother : ∀ j t', j ≠ i → s.writing j = some t' → t'.taken = [] := by
        intro j t' hji hj
        by_contra hne
        exact horderly (by rw [hi]; exact Option.some_ne_none t) hn j hji ⟨t', hj, hne⟩
      obtain rfl := part_eq_taken hpart hi hother
      refine ⟨_, part_update hother (t.put n), ?_⟩
      rcases t.put_cases n with ⟨hput, -, hwhole⟩ | ⟨t', hput, htaken, -⟩
      · rw [hput, if_pos rfl, hstream, List.append_assoc, hwhole, List.map_append,
          List.flatMap_append, List.map_singleton, List.flatMap_singleton]
        exact (List.append_nil _).symm
      · rw [hput, if_neg (Option.some_ne_none t'), hstream, List.append_assoc, ← htaken]
        rfl

theorem inv_step (h : s.Inv) {a : WriteStep} (horderly : s.Orderly a) : (s.step a).Inv := by
  cases a with
  | enter i line => exact inv_enter h i line
  | put i n => exact inv_put h horderly

/-- Whole messages and a part of one more are whole lines and a tail. -/
theorem whole_of_inv (h : s.Inv) : s.Whole := by
  obtain ⟨part, hpart, hstream⟩ := h
  have hlines : ∀ line ∈ s.done.map Subtype.val, newline ∉ line :=
    List.forall_mem_map.mpr fun line _ ↦ line.property
  have hnewline : newline ∉ part := by
    cases hpart with
    | nothing => exact List.not_mem_nil
    | ofThread i t => exact t.newline_notMem_taken
  constructor
  · rw [hstream, Framing.lines_terminate hlines hnewline]
  · intro hnone
    rw [hstream, Framing.tail_terminate hlines hnewline]
    cases hpart with
    | nothing => rfl
    | ofThread i t hi => cases (hnone i).symm.trans hi

end Inv

/-! ## One thread on its own -/

theorem foldl_put_none {s : Port} {i : ℕ} (hi : s.writing i = none) (counts : List ℕ) :
    (counts.map (WriteStep.put i)).foldl Port.step s = s := by
  induction counts with
  | nil => rfl
  | cons n counts ih => rw [List.map_cons, List.foldl_cons, step_put_none hi, ih]

/-- A thread that runs alone puts on the stream what `writeLoop` says. -/
theorem write_alone {s : Port} {i : ℕ} (hi : s.writing i = none) (line : Line) (counts : List ℕ) :
    ((counts.map (WriteStep.put i)).foldl Port.step (s.step (.enter i line))).stream =
      s.stream ++ (writeLoop (Framing.terminate newline line.val)
        (counts.map WriteEvent.accepted)).taken := by
  have hloop : ∀ (s : Port) (t : Writing), s.writing i = some t →
      ((counts.map (WriteStep.put i)).foldl Port.step s).stream =
        s.stream ++ (writeLoop t.left (counts.map WriteEvent.accepted)).taken := by
    induction counts with
    | nil =>
      intro s t ht
      obtain ⟨x, left, hleft⟩ := List.exists_cons_of_ne_nil t.left_ne_nil
      rw [hleft]
      exact (List.append_nil _).symm
    | cons n counts ih =>
      intro s t ht
      have hwrite : (writeLoop t.left ((n :: counts).map WriteEvent.accepted)).taken =
          t.left.take n ++ (writeLoop (t.left.drop n) (counts.map WriteEvent.accepted)).taken := by
        obtain ⟨x, left, hleft⟩ := List.exists_cons_of_ne_nil t.left_ne_nil
        rw [hleft]
        rfl
      rw [hwrite, List.map_cons, List.foldl_cons, step_put ht, ← List.append_assoc]
      rcases t.put_cases n with ⟨hput, hdrop, -⟩ | ⟨t', hput, -, -, hleft⟩
      · rw [foldl_put_none (by rw [hput]; exact Function.update_self ..), hdrop, writeLoop,
          List.append_nil]
      · rw [← hleft]
        exact ih _ t' (by rw [hput]; exact Function.update_self ..)
  rw [step_enter hi]
  exact hloop _ (.start line) (Function.update_self ..)

/-! ## Runs -/

/-- **Whole messages.**  In a run in which no bytes are taken of one message while another one has
been taken in part, the stream is made up of whole messages in every state. -/
theorem always_whole {run : List WriteStep} (h : Each Port.step Port.Orderly .init run) :
    Always Port.step Port.Whole .init run := by
  have hinv : Always Port.step Port.Inv .init run :=
    always_of_each Port.Inv (fun _ _ h horderly ↦ inv_step h horderly) inv_port_init h
  exact hinv.mono fun _ ↦ whole_of_inv

/-- The worker writes its heartbeat in two pieces, and another thread a message between them. -/
def mixedRun : List WriteStep :=
  [.enter 0 ⟨bareLine "heartbeat", by decide⟩, .enter 1 ⟨bareLine "session-lock", by decide⟩,
   .put 0 10, .put 1 100, .put 0 100]

/-- The same messages one after the other. -/
def orderlyRun : List WriteStep :=
  [.enter 0 ⟨bareLine "heartbeat", by decide⟩, .enter 1 ⟨bareLine "session-lock", by decide⟩,
   .put 0 10, .put 1 0, .put 0 100, .put 1 100]

theorem not_always_whole : ¬ Always Port.step Port.Whole .init mixedRun := by
  rw [always_iff_prefixes]
  intro h
  have hwhole := h mixedRun (List.prefix_refl _)
  exact absurd hwhole.lines (by decide)

theorem always_whole_orderlyRun : Always Port.step Port.Whole .init orderlyRun := by
  refine always_whole ⟨trivial, trivial, ?_, ?_, ?_, ?_, trivial⟩
  · rintro - - (_ | _ | j) hj ⟨t, ht, hne⟩
    · exact hj rfl
    · cases ht
      exact hne rfl
    · cases ht
  · exact fun _ hn ↦ absurd hn (by decide)
  · rintro - - (_ | _ | j) hj ⟨t, ht, hne⟩
    · exact hj rfl
    · cases ht
      exact hne rfl
    · cases ht
  · rintro - - (_ | _ | j) hj ⟨t, ht, hne⟩
    · cases ht
    · exact hj rfl
    · cases ht

end GuestAgent
