import Mathlib.Data.List.Basic

/-!
# Lines

A stream of bytes that carries one message after another needs a way to tell where a message ends.
The oldest one is a terminator: a symbol that no message contains and that follows each of them.
`Framing.lines` are the messages a list of symbols contains by that convention, and `Framing.tail`
is what is left after the last terminator, the beginning of a message that is not complete.

`Framing.cut` takes the first line off, which is what a receiver does as soon as a terminator has
arrived, and `lines_append_sep` and `tail_append_sep` say what is left then.  `Framing.induction` is
the induction that goes with it.  `lines_terminate` and `tail_terminate` are the round trip with a
sender that puts the terminator after each message.
-/

set_option autoImplicit false

namespace Framing

variable {α : Type} [DecidableEq α] {sep : α} {l l' p r : List α}

/-- The first line, and what comes after its terminator. -/
def cut (sep : α) : List α → Option (List α × List α)
  | [] => none
  | x :: l => if x = sep then some ([], l) else (cut sep l).map fun q ↦ (x :: q.1, q.2)

/-- The terminated lines. -/
def lines (sep : α) (l : List α) : List (List α) := (l.splitOn sep).dropLast

/-- What comes after the last terminator. -/
def tail (sep : α) (l : List α) : List α := (l.splitOn sep).getLast (List.splitOn_ne_nil sep l)

/-- A line with its terminator. -/
def terminate (sep : α) (p : List α) : List α := p ++ [sep]

theorem cut_eq_none_iff : cut sep l = none ↔ sep ∉ l := by
  induction l with
  | nil => simp [cut]
  | cons x l ih =>
    rw [cut]
    split
    · simp_all
    · rename_i hx
      rw [Option.map_eq_none_iff, ih, List.mem_cons, not_or]
      exact (and_iff_right (Ne.symm hx)).symm

theorem cut_append (hp : sep ∉ p) (r : List α) : cut sep (p ++ sep :: r) = some (p, r) := by
  induction p with
  | nil => simp [cut]
  | cons x p ih =>
    rw [List.mem_cons, not_or] at hp
    rw [List.cons_append, cut, if_neg (Ne.symm hp.1), ih hp.2]
    rfl

theorem cut_eq_some_iff : cut sep l = some (p, r) ↔ sep ∉ p ∧ l = p ++ sep :: r := by
  constructor
  · induction l generalizing p with
    | nil => simp [cut]
    | cons x l ih =>
      rw [cut]
      split
      · rename_i hx
        rintro ⟨⟩
        exact ⟨List.not_mem_nil, by rw [hx]; rfl⟩
      · rename_i hx
        intro h
        obtain ⟨⟨p', r'⟩, hcut, heq⟩ := Option.map_eq_some_iff.mp h
        cases heq
        obtain ⟨hp, rfl⟩ := ih hcut
        exact ⟨by simp [hp, Ne.symm hx], rfl⟩
  · rintro ⟨hp, rfl⟩
    exact cut_append hp r

/-- **Induction on the lines of a list.** -/
@[elab_as_elim]
theorem induction {motive : List α → Prop} (sep : α) (rest : ∀ l, sep ∉ l → motive l)
    (line : ∀ p l, sep ∉ p → motive l → motive (p ++ sep :: l)) (l : List α) : motive l := by
  rcases hcut : cut sep l with _ | ⟨p, r⟩
  · exact rest l (cut_eq_none_iff.mp hcut)
  · obtain ⟨hp, hl⟩ := cut_eq_some_iff.mp hcut
    have hlt : r.length < l.length := by
      rw [hl, List.length_append, List.length_cons]
      omega
    rw [hl]
    exact line p r hp (induction sep rest line r)
termination_by l.length

@[simp] theorem lines_of_notMem (h : sep ∉ l) : lines sep l = [] := by
  rw [lines, List.splitOn_eq_singleton h]
  rfl

@[simp] theorem tail_of_notMem (h : sep ∉ l) : tail sep l = l := by
  simp only [tail, List.splitOn_eq_singleton h, List.getLast_singleton]

/-- The lines, and what is left. -/
theorem lines_concat_tail (sep : α) (l : List α) : lines sep l ++ [tail sep l] = l.splitOn sep :=
  List.dropLast_append_getLast (List.splitOn_ne_nil sep l)

theorem lines_append_sep (hp : sep ∉ p) (l : List α) :
    lines sep (p ++ sep :: l) = p :: lines sep l := by
  rw [lines, List.splitOn_append_cons_self_of_not_mem hp,
    List.dropLast_cons_of_ne_nil (List.splitOn_ne_nil sep l), lines]

theorem tail_append_sep (hp : sep ∉ p) (l : List α) : tail sep (p ++ sep :: l) = tail sep l := by
  simp only [tail, List.splitOn_append_cons_self_of_not_mem hp,
    List.getLast_cons (List.splitOn_ne_nil sep l)]

theorem notMem_of_mem_splitOn (h : p ∈ l.splitOn sep) : sep ∉ p := by
  induction l using Framing.induction sep with
  | rest l hl =>
    rw [List.splitOn_eq_singleton hl, List.mem_singleton] at h
    rwa [h]
  | line q l hq ih =>
    rw [List.splitOn_append_cons_self_of_not_mem hq, List.mem_cons] at h
    rcases h with rfl | h
    · exact hq
    · exact ih h

/-- What one separator separates. -/
theorem splitOn_eq_pair_iff : l.splitOn sep = [p, r] ↔ l = p ++ sep :: r ∧ sep ∉ p ∧ sep ∉ r := by
  constructor
  · intro h
    have hl : l = p ++ sep :: r := by
      have hjoin : [sep].intercalate (l.splitOn sep) = l := List.intercalate_splitOn sep
      rw [← hjoin, h, List.intercalate_cons_cons, List.intercalate_singleton, List.append_assoc,
        List.singleton_append]
    refine ⟨hl, notMem_of_mem_splitOn (l := l) ?_, notMem_of_mem_splitOn (l := l) ?_⟩ <;> simp [h]
  · rintro ⟨rfl, hp, hr⟩
    rw [List.splitOn_append_cons_self_of_not_mem hp, List.splitOn_eq_singleton hr]

/-- Nothing is left after the last terminator where nothing or a terminator comes last. -/
theorem tail_eq_nil_iff : tail sep l = [] ↔ l = [] ∨ l.getLast? = some sep := by
  induction l using Framing.induction sep with
  | rest l h =>
    rw [tail_of_notMem h]
    exact (or_iff_left fun hlast ↦ h (List.mem_of_getLast? hlast)).symm
  | line p l hp ih =>
    rw [tail_append_sep hp, ih, List.getLast?_append, List.getLast?_cons, Option.some_or]
    cases hlast : l.getLast? with
    | none => simp [List.getLast?_eq_none_iff.mp hlast]
    | some x =>
      have hl : l ≠ [] := by
        rintro rfl
        cases hlast
      simp [hl]

/-- **The round trip**: terminated lines, and the beginning of another one, are what was sent. -/
theorem lines_terminate {ls : List (List α)} (hls : ∀ p ∈ ls, sep ∉ p) (hp : sep ∉ p) :
    lines sep (ls.flatMap (terminate sep) ++ p) = ls := by
  induction ls with
  | nil => exact lines_of_notMem hp
  | cons q ls ih =>
    rw [List.flatMap_cons, terminate, List.append_assoc, List.append_assoc, List.singleton_append,
      lines_append_sep (hls q List.mem_cons_self),
      ih fun q' hq' ↦ hls q' (List.mem_cons_of_mem q hq')]

theorem tail_terminate {ls : List (List α)} (hls : ∀ p ∈ ls, sep ∉ p) (hp : sep ∉ p) :
    tail sep (ls.flatMap (terminate sep) ++ p) = p := by
  induction ls with
  | nil => exact tail_of_notMem hp
  | cons q ls ih =>
    rw [List.flatMap_cons, terminate, List.append_assoc, List.append_assoc, List.singleton_append,
      tail_append_sep (hls q List.mem_cons_self),
      ih fun q' hq' ↦ hls q' (List.mem_cons_of_mem q hq')]

end Framing
