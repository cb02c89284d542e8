import GuestAgent.Channel.Filter

/-!
# The characters of an XML document

XML 1.1 says which characters a document may contain: those of the class `Char` that are not in the
class `RestrictedChar`.  `cleanChar` is what the filter is to do to a character by that
specification, and `filterXmlChar_eq` that it does it.

But a Unicode string of Python 2 is a sequence of units, and what the units are depends on how the
interpreter was built: code points on Linux, and UTF-16 code units in the Windows builds, where a
character beyond the basic plane is a surrogate pair.  The filter goes through the units one by one.
`filterXmlChars_correct_iff` says that a surrogate pair is the only thing that makes a difference.
-/

set_option autoImplicit false

namespace GuestAgent

/-! ## XML 1.1 -/

/-- `Char`. -/
def IsXmlChar (c : Nat) : Prop :=
  (0x1 ≤ c ∧ c ≤ 0xD7FF) ∨ (0xE000 ≤ c ∧ c ≤ 0xFFFD) ∨ (0x10000 ≤ c ∧ c ≤ 0x10FFFF)

/-- `RestrictedChar`. -/
def IsXmlRestrictedChar (c : Nat) : Prop :=
  (0x1 ≤ c ∧ c ≤ 0x8) ∨ (0xB ≤ c ∧ c ≤ 0xC) ∨ (0xE ≤ c ∧ c ≤ 0x1F) ∨ (0x7F ≤ c ∧ c ≤ 0x84) ∨
    (0x86 ≤ c ∧ c ≤ 0x9F)

/-- May a document contain the character? -/
def XmlAllows (c : Nat) : Prop := IsXmlChar c ∧ ¬ IsXmlRestrictedChar c

instance : DecidablePred XmlAllows := fun c ↦ by
  unfold XmlAllows IsXmlChar IsXmlRestrictedChar
  infer_instance

/-- A character that is allowed, or the replacement character. -/
def cleanChar (c : Nat) : Nat := if XmlAllows c then c else replacementChar

theorem isSurrogate_iff {c : Nat} :
    (isHighSurrogate c || isLowSurrogate c) = true ↔ 0xD800 ≤ c ∧ c < 0xE000 := by
  simp only [isHighSurrogate, isLowSurrogate, Bool.or_eq_true, Bool.and_eq_true, decide_eq_true_eq]
  omega

theorem isRestrictedChar_iff {c : Nat} :
    isRestrictedChar c = true ↔ c = 0 ∨ IsXmlRestrictedChar c := by
  simp only [isRestrictedChar, IsXmlRestrictedChar, Bool.or_eq_true, Bool.and_eq_true,
    decide_eq_true_eq]
  omega

/-- The filter replaces what is not allowed. -/
theorem filterXmlChar_eq (c : Nat) : filterXmlChar c = cleanChar c := by
  have hallows : XmlAllows c ↔ ¬ c > 0x10FFFF ∧ ¬ (isHighSurrogate c || isLowSurrogate c) ∧
      ¬ (c = 0xFFFE ∨ c = 0xFFFF) ∧ ¬ isRestrictedChar c := by
    rw [isSurrogate_iff, isRestrictedChar_iff, not_or (p := c = 0), XmlAllows, IsXmlChar]
    by_cases hres : IsXmlRestrictedChar c
    · simp [hres]
    · simp only [hres, not_false_eq_true, and_true]
      omega
  rw [cleanChar, filterXmlChar]
  split_ifs <;> simp_all

/-! ## Strings of units -/

/-- How the interpreter keeps a Unicode string. -/
inductive StringBuild where
  | codePoints
  | codeUnits
  deriving DecidableEq

namespace StringBuild

/-- What is above every unit. -/
def bound : StringBuild → Nat
  | codePoints => 0x110000
  | codeUnits => 0x10000

/-- The characters that units stand for. -/
def chars : StringBuild → Text → Text
  | codePoints, t => t
  | codeUnits, t => joinSurrogates t

/-- The units of a character. -/
def unitsOf : StringBuild → Nat → Text
  | codePoints, c => [c]
  | codeUnits, c =>
    if c < 0x10000 then [c] else [0xD800 + (c - 0x10000) / 0x400, 0xDC00 + (c - 0x10000) % 0x400]

/-- The units of characters. -/
def units (b : StringBuild) (t : Text) : Text := t.flatMap b.unitsOf

end StringBuild

/-- A Unicode string, with units such as the interpreter has. -/
structure UnicodeString (b : StringBuild) where
  units : Text
  lt_bound : ∀ c ∈ units, c < b.bound

/-- A surrogate pair is somewhere in the units. -/
def HasPair (t : Text) : Prop :=
  ∃ before c d after, t = before ++ c :: d :: after ∧ isHighSurrogate c ∧ isLowSurrogate d

theorem hasPair_cons_iff {c d : Nat} {t : Text} :
    HasPair (c :: d :: t) ↔ isHighSurrogate c ∧ isLowSurrogate d ∨ HasPair (d :: t) := by
  constructor
  · rintro ⟨before, c', d', after, heq, hc, hd⟩
    rcases before with _ | ⟨x, before⟩
    · cases heq
      exact .inl ⟨hc, hd⟩
    · exact .inr ⟨before, c', d', after, (List.cons.inj heq).2, hc, hd⟩
  · rintro (⟨hc, hd⟩ | ⟨before, c', d', after, heq, hc, hd⟩)
    · exact ⟨[], c, d, t, rfl, hc, hd⟩
    · exact ⟨c :: before, c', d', after, by rw [heq]; rfl, hc, hd⟩

theorem cleanChar_lt {c : Nat} (h : c < 0x10000) : cleanChar c < 0x10000 := by
  rw [cleanChar]
  split
  · exact h
  · decide

/-- A character beyond the basic plane is allowed. -/
theorem cleanChar_of_pair {c d : Nat} (hc : isHighSurrogate c) (hd : isLowSurrogate d) :
    cleanChar ((c - 0xD800) * 0x400 + (d - 0xDC00) + 0x10000) =
      (c - 0xD800) * 0x400 + (d - 0xDC00) + 0x10000 := by
  simp only [isHighSurrogate, isLowSurrogate, Bool.and_eq_true, decide_eq_true_eq] at hc hd
  rw [cleanChar, if_pos]
  rw [XmlAllows, IsXmlChar, IsXmlRestrictedChar]
  omega

theorem not_hasPair_nil : ¬ HasPair [] := by
  rintro ⟨before, c, d, after, heq, -⟩
  simp at heq

theorem not_hasPair_singleton (c : Nat) : ¬ HasPair [c] := by
  rintro ⟨before, c', d, after, heq, -⟩
  have hlen : 1 = before.length + (after.length + 2) := by
    rw [← List.length_singleton (a := c), heq, List.length_append]
    rfl
  omega

namespace StringBuild

@[simp] theorem units_nil (b : StringBuild) : b.units [] = [] := rfl

@[simp] theorem units_cons (b : StringBuild) (c : Nat) (t : Text) :
    b.units (c :: t) = b.unitsOf c ++ b.units t := rfl

theorem unitsOf_cleanChar {c : Nat} (h : c < 0x10000) :
    codeUnits.unitsOf (cleanChar c) = [cleanChar c] :=
  if_pos (cleanChar_lt h)

/-- The pair of a character made of a pair. -/
theorem unitsOf_pair {c d : Nat} (hc : isHighSurrogate c) (hd : isLowSurrogate d) :
    codeUnits.unitsOf ((c - 0xD800) * 0x400 + (d - 0xDC00) + 0x10000) = [c, d] := by
  simp only [isHighSurrogate, isLowSurrogate, Bool.and_eq_true, decide_eq_true_eq] at hc hd
  have hhigh : 0xD800 + ((c - 0xD800) * 0x400 + (d - 0xDC00) + 0x10000 - 0x10000) / 0x400 = c := by
    omega
  have hlow : 0xDC00 + ((c - 0xD800) * 0x400 + (d - 0xDC00) + 0x10000 - 0x10000) % 0x400 = d := by
    omega
  rw [unitsOf, if_neg (by omega), hhigh, hlow]

end StringBuild

/-- In code units the filter is right exactly where there is no surrogate pair. -/
theorem map_filterXmlChar_codeUnits_iff {t : Text} (h : ∀ c ∈ t, c < 0x10000) :
    t.map filterXmlChar = StringBuild.codeUnits.units ((joinSurrogates t).map cleanChar) ↔
      ¬ HasPair t := by
  induction t using joinSurrogates.induct with
  | case1 => exact iff_of_true rfl not_hasPair_nil
  | case2 c =>
    refine iff_of_true ?_ (not_hasPair_singleton c)
    have hc : c < 0x10000 := h c List.mem_cons_self
    rw [joinSurrogates, List.map_singleton, List.map_singleton, StringBuild.units_cons,
      StringBuild.unitsOf_cleanChar hc, filterXmlChar_eq]
    rfl
  | case3 c d cs hpair ih =>
    obtain ⟨hc, hd⟩ := Bool.and_eq_true_iff.mp hpair
    -- the filter replaces the first half, which is to be kept
    have hrepl : filterXmlChar c = replacementChar := by
      rw [filterXmlChar]
      split
      · rfl
      · rw [if_pos (by rw [hc]; rfl)]
    have hne : replacementChar ≠ c := by
      rintro rfl
      exact absurd hc (by decide)
    refine iff_of_false (fun heq ↦ hne ?_) (not_not_intro (hasPair_cons_iff.mpr (.inl ⟨hc, hd⟩)))
    rw [joinSurrogates, if_pos hpair, List.map_cons, List.map_cons (f := cleanChar),
      StringBuild.units_cons,
      cleanChar_of_pair hc hd, StringBuild.unitsOf_pair hc hd, hrepl] at heq
    exact (List.cons.inj heq).1
  | case4 c d cs hpair ih =>
    have hc : c < 0x10000 := h c List.mem_cons_self
    have hnot : ¬ (isHighSurrogate c = true ∧ isLowSurrogate d = true) := fun hcd ↦
      hpair (Bool.and_eq_true_iff.mpr hcd)
    rw [joinSurrogates, if_neg hpair, List.map_cons, List.map_cons (f := cleanChar),
      StringBuild.units_cons,
      StringBuild.unitsOf_cleanChar hc, filterXmlChar_eq, List.singleton_append, List.cons.injEq,
      and_iff_right rfl, ih fun x hx ↦ h x (List.mem_cons_of_mem c hx), hasPair_cons_iff,
      or_iff_right hnot]

/-- An empty text is filtered to an empty byte string, which equals the empty text. -/
theorem filterXmlChars_eq_unicode_iff {t t' : Text} :
    (filterXmlChars t).eq (.unicode t') ↔ t.map filterXmlChar = t' := by
  rcases t with _ | ⟨c, t⟩
  · rw [filterXmlChars, PyStr.eq, List.all_nil, Bool.true_and, beq_iff_eq]
    exact Iff.rfl
  · rw [filterXmlChars, PyStr.eq, beq_iff_eq]
    exact List.cons_ne_nil c t

/-- **Every character that is not allowed is replaced by one replacement character and every other
one kept, exactly where units are code points or no two of them are a surrogate pair.** -/
theorem filterXmlChars_correct_iff (b : StringBuild) (s : UnicodeString b) :
    (filterXmlChars s.units).eq (.unicode (b.units ((b.chars s.units).map cleanChar))) ↔
      b = .codePoints ∨ ¬ HasPair s.units := by
  rw [filterXmlChars_eq_unicode_iff]
  cases b with
  | codePoints =>
    refine iff_of_true ?_ (.inl rfl)
    have hunits : ∀ t, StringBuild.codePoints.units t = t := List.flatMap_singleton'
    rw [hunits]
    exact List.map_congr_left fun c _ ↦ filterXmlChar_eq c
  | codeUnits =>
    rw [StringBuild.chars, map_filterXmlChar_codeUnits_iff s.lt_bound]
    exact (or_iff_right nofun).symm

/-- U+10000 in code units. -/
theorem not_filterXmlChars_correct :
    ¬ (filterXmlChars [0xD800, 0xDC00]).eq (.unicode (StringBuild.codeUnits.units
      ((StringBuild.codeUnits.chars [0xD800, 0xDC00]).map cleanChar))) := by
  have hfiltered : filterXmlChars [0xD800, 0xDC00] = .unicode [0xFFFD, 0xFFFD] := by decide
  have hexpected : StringBuild.codeUnits.units
      ((StringBuild.codeUnits.chars [0xD800, 0xDC00]).map cleanChar) = [0xD800, 0xDC00] := by decide
  rw [hfiltered, hexpected]
  decide

end GuestAgent
