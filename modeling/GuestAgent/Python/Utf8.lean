import GuestAgent.Python.Object

/-!
# The `utf8` codec

`encodeUtf8` is `unicode.encode('utf8')` and `decodeUtf8` is `str.decode('utf8')`, in the strict
mode the agent uses them in.  Python 2 lets surrogates through in both directions: encoding joins a
surrogate pair into the character it stands for and writes an unpaired surrogate as three bytes, so
that encoding never fails.

What the credentials code relies on is that encoding is transparent for two bytes: a NUL or an `@`
in the output comes from that character in the input and from nowhere else.
-/

set_option autoImplicit false

namespace GuestAgent

/-- Is `c` the first half of a surrogate pair? -/
def isHighSurrogate (c : Nat) : Bool := 0xD800 ≤ c && c < 0xDC00

/-- Is `c` the second half of a surrogate pair? -/
def isLowSurrogate (c : Nat) : Bool := 0xDC00 ≤ c && c < 0xE000

/-- Every surrogate pair replaced by the code point it stands for. -/
def joinSurrogates : Text → Text
  | [] => []
  | [c] => [c]
  | c :: d :: cs =>
    if isHighSurrogate c && isLowSurrogate d then
      ((c - 0xD800) * 0x400 + (d - 0xDC00) + 0x10000) :: joinSurrogates cs
    else c :: joinSurrogates (d :: cs)

/-- The bytes of one code point. -/
def utf8Char (c : Nat) : Bytes :=
  if c < 0x80 then [.ofNat c]
  else if c < 0x800 then [.ofNat (0xC0 + c / 0x40), .ofNat (0x80 + c % 0x40)]
  else if c < 0x10000 then
    [.ofNat (0xE0 + c / 0x1000), .ofNat (0x80 + c / 0x40 % 0x40), .ofNat (0x80 + c % 0x40)]
  else
    [.ofNat (0xF0 + c / 0x40000), .ofNat (0x80 + c / 0x1000 % 0x40),
      .ofNat (0x80 + c / 0x40 % 0x40), .ofNat (0x80 + c % 0x40)]

/-- `t.encode('utf8')`. -/
def encodeUtf8 (t : Text) : Bytes := (joinSurrogates t).flatMap utf8Char

/-- `x.encode('utf8')`.  A byte string is decoded as ASCII first. -/
def PyObj.encode : PyObj → Except PyExn Bytes
  | str (.unicode t) => .ok (encodeUtf8 t)
  | str (.str b) => if b.all (· < 128) then .ok b else .error .unicodeError
  | _ => .error .attributeError

/-- Is `b` a continuation byte? -/
def isContinuation (b : UInt8) : Bool := 0x80 ≤ b && b < 0xC0

/-- `b.decode('utf8')`, or nothing where it raises. -/
def decodeUtf8 : Bytes → Option Text
  | [] => some []
  | b :: bs =>
    if b < 0x80 then (decodeUtf8 bs).map (List.cons b.toNat)
    else if 0xC2 ≤ b && b < 0xE0 then
      match bs with
      | c :: bs =>
        if isContinuation c then
          (decodeUtf8 bs).map (List.cons ((b.toNat - 0xC0) * 0x40 + (c.toNat - 0x80)))
        else none
      | _ => none
    else if 0xE0 ≤ b && b < 0xF0 then
      match bs with
      | c :: d :: bs =>
        if isContinuation c && isContinuation d && (b != 0xE0 || 0xA0 ≤ c) then
          (decodeUtf8 bs).map <| List.cons <|
            (b.toNat - 0xE0) * 0x1000 + (c.toNat - 0x80) * 0x40 + (d.toNat - 0x80)
        else none
      | _ => none
    else if 0xF0 ≤ b && b < 0xF5 then
      match bs with
      | c :: d :: e :: bs =>
        if isContinuation c && isContinuation d && isContinuation e &&
            (b != 0xF0 || 0x90 ≤ c) && (b != 0xF4 || c < 0x90) then
          (decodeUtf8 bs).map <| List.cons <|
            (b.toNat - 0xF0) * 0x40000 + (c.toNat - 0x80) * 0x1000 + (d.toNat - 0x80) * 0x40 +
              (e.toNat - 0x80)
        else none
      | _ => none
    else none

example : encodeUtf8 [0x61, 0xE9, 0x20AC, 0xD83D, 0xDE00] =
    [0x61, 0xC3, 0xA9, 0xE2, 0x82, 0xAC, 0xF0, 0x9F, 0x98, 0x80] := by decide

theorem joinSurrogates_of_ascii {t : Text} (h : ∀ c ∈ t, c < 0x80) : joinSurrogates t = t := by
  induction t using joinSurrogates.induct with
  | case1 => rfl
  | case2 c => rfl
  | case3 c d cs hpair ih =>
    have hc : c < 0x80 := h c (by simp)
    simp only [isHighSurrogate, Bool.and_eq_true, decide_eq_true_eq] at hpair
    omega
  | case4 c d cs hpair ih =>
    rw [joinSurrogates, if_neg hpair, ih fun x hx ↦ h x (List.mem_cons_of_mem _ hx)]

/-- ASCII text is encoded byte for byte. -/
theorem encodeUtf8_ascii {t : Text} (h : ∀ c ∈ t, c < 0x80) :
    encodeUtf8 t = t.map UInt8.ofNat := by
  rw [encodeUtf8, joinSurrogates_of_ascii h]
  induction t with
  | nil => rfl
  | cons c t ih =>
    have hc : c < 0x80 := h c (by simp)
    rw [List.flatMap_cons, ih fun x hx ↦ h x (by simp [hx]), utf8Char, if_pos hc]
    rfl

/-- ASCII bytes decode to their values. -/
theorem decodeUtf8_ascii {b : Bytes} (h : ∀ x ∈ b, x < 0x80) :
    decodeUtf8 b = some (b.map UInt8.toNat) := by
  induction b with
  | nil => rfl
  | cons x b ih =>
    have hx : x < 0x80 := h x (by simp)
    have hb := ih fun y hy ↦ h y (by simp [hy])
    simp [decodeUtf8.eq_def (x :: b), hx, hb]

/-! ## What encoding does to NUL and `@` -/

/-- A code point with no NUL in its encoding, and no `0xFF`: every character but NUL. -/
def IsChar (c : Nat) : Prop := 0 < c ∧ c < 0x110000

instance : DecidablePred IsChar := fun c ↦ inferInstanceAs (Decidable (0 < c ∧ c < 0x110000))

theorem isChar_of_mem_joinSurrogates {t : Text} (ht : ∀ c ∈ t, IsChar c) :
    ∀ c ∈ joinSurrogates t, IsChar c := by
  induction t using joinSurrogates.induct with
  | case1 => exact ht
  | case2 c => exact ht
  | case3 c d cs hpair ih =>
    intro x hx
    rw [joinSurrogates, if_pos hpair, List.mem_cons] at hx
    rcases hx with rfl | hx
    · simp only [isHighSurrogate, isLowSurrogate, Bool.and_eq_true, decide_eq_true_eq] at hpair
      exact ⟨by omega, by omega⟩
    · exact ih (fun y hy ↦ ht y (by simp [hy])) x hx
  | case4 c d cs hpair ih =>
    intro x hx
    rw [joinSurrogates, if_neg hpair, List.mem_cons] at hx
    rcases hx with rfl | hx
    · exact ht x (by simp)
    · exact ih (fun y hy ↦ ht y (List.mem_cons_of_mem _ hy)) x hx

/-- A byte of an encoded character is below `0xFF`, and is the character itself where it is
ASCII. -/
theorem toNat_of_mem_utf8Char {c : Nat} (hc : IsChar c) {b : UInt8} (hb : b ∈ utf8Char c) :
    b.toNat < 0xFF ∧ (b.toNat < 0x80 → b.toNat = c) := by
  obtain ⟨-, h1⟩ := hc
  have high : ∀ n, 0x80 ≤ n → n < 0xFF →
      (UInt8.ofNat n).toNat < 0xFF ∧
        ((UInt8.ofNat n).toNat < 0x80 → (UInt8.ofNat n).toNat = c) := by
    intro n hn hn'
    rw [UInt8.toNat_ofNat']
    omega
  simp only [utf8Char] at hb
  split at hb
  · rw [List.mem_singleton] at hb
    subst hb
    rw [UInt8.toNat_ofNat']
    omega
  · split at hb
    · simp only [List.mem_cons, List.not_mem_nil, or_false] at hb
      rcases hb with rfl | rfl <;> exact high _ (by omega) (by omega)
    · split at hb <;> simp only [List.mem_cons, List.not_mem_nil, or_false] at hb
      · rcases hb with rfl | rfl | rfl <;> exact high _ (by omega) (by omega)
      · rcases hb with rfl | rfl | rfl | rfl <;> exact high _ (by omega) (by omega)

/-- The encoding of a text without NUL has neither a NUL nor a `0xFF` byte. -/
theorem encodeUtf8_ne {t : Text} (ht : ∀ c ∈ t, IsChar c) :
    ∀ b ∈ encodeUtf8 t, b ≠ 0 ∧ b ≠ 0xFF := by
  intro b hb
  obtain ⟨c, hc, hb⟩ := List.mem_flatMap.mp hb
  have hchar := isChar_of_mem_joinSurrogates ht c hc
  obtain ⟨hlt, hascii⟩ := toNat_of_mem_utf8Char hchar hb
  constructor
  · rintro rfl
    exact hchar.1.ne (hascii (by decide))
  · rintro rfl
    exact absurd hlt (by decide)

theorem utf8Char_ne_at {c : Nat} (hc : IsChar c) (hat : c ≠ 0x40) :
    ∀ b ∈ utf8Char c, b ≠ 0x40 := by
  rintro b hb rfl
  exact hat ((toNat_of_mem_utf8Char hc hb).2 (by decide)).symm

theorem joinSurrogates_takeWhile (t : Text) :
    joinSurrogates (t.takeWhile (· ≠ 0x40)) = (joinSurrogates t).takeWhile (· ≠ 0x40) := by
  induction t using joinSurrogates.induct with
  | case1 => rfl
  | case2 c => by_cases hc : c = 0x40 <;> simp [joinSurrogates, hc]
  | case3 c d cs hpair ih =>
    have hpair' := hpair
    simp only [isHighSurrogate, isLowSurrogate, Bool.and_eq_true, decide_eq_true_eq] at hpair'
    have hc : c ≠ 0x40 := by omega
    have hd : d ≠ 0x40 := by omega
    have hjoin : (c - 0xD800) * 0x400 + (d - 0xDC00) + 0x10000 ≠ 0x40 := by omega
    simpa [joinSurrogates, hpair, hc, hd, hjoin] using ih
  | case4 c d cs hpair ih =>
    by_cases hc : c = 0x40
    · simp [joinSurrogates, hc, isHighSurrogate]
    · have hcons : joinSurrogates (c :: (d :: cs).takeWhile (· ≠ 0x40)) =
          c :: joinSurrogates ((d :: cs).takeWhile (· ≠ 0x40)) := by
        by_cases hd : d = 0x40
        · simp [joinSurrogates, hd]
        · rw [List.takeWhile_cons_of_pos (by simpa using hd), joinSurrogates, if_neg hpair]
      rw [List.takeWhile_cons_of_pos (by simpa using hc), hcons, ih, joinSurrogates, if_neg hpair,
        List.takeWhile_cons_of_pos (by simpa using hc)]

theorem takeWhile_flatMap_utf8Char {t : Text} (ht : ∀ c ∈ t, IsChar c) :
    (t.flatMap utf8Char).takeWhile (· ≠ 0x40) = (t.takeWhile (· ≠ 0x40)).flatMap utf8Char := by
  induction t with
  | nil => rfl
  | cons c t ih =>
    have ih := ih fun d hd ↦ ht d (by simp [hd])
    by_cases hc : c = 0x40
    · subst hc
      rfl
    · have hne := utf8Char_ne_at (ht c (by simp)) hc
      rw [List.flatMap_cons, List.takeWhile_append_of_pos (by simpa using hne), ih,
        List.takeWhile_cons_of_pos (by simpa using hc), List.flatMap_cons]

/-- What comes before the first `@` is encoded as what comes before the first `@`. -/
theorem takeWhile_encodeUtf8 {t : Text} (ht : ∀ c ∈ t, IsChar c) :
    (encodeUtf8 t).takeWhile (· ≠ 0x40) = encodeUtf8 (t.takeWhile (· ≠ 0x40)) := by
  rw [encodeUtf8, takeWhile_flatMap_utf8Char (isChar_of_mem_joinSurrogates ht),
    ← joinSurrogates_takeWhile, encodeUtf8]

end GuestAgent
