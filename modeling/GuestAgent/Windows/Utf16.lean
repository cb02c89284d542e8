import GuestAgent.Python.Utf8
import GuestAgent.Library.CString

/-!
# UTF-8 to UTF-16

The consumers of the credentials block on Windows want UTF-16, and `MultiByteToWideChar` with
`CP_UTF8` makes it of the bytes of the block.  The function is the system's, so that the conversion
is a parameter here: `Utf8Decoder` is a conversion with what is relied on, which is that text is
converted character by character, and that there are never more units than bytes.  What becomes of
an unpaired surrogate, which Python lets into the block, is left open; it may be anything but a NUL
or an `@`.

`replacing` is such a conversion: what is not UTF-8 is replaced by U+FFFD, byte by byte.
-/

set_option autoImplicit false

namespace GuestAgent

/-- Units of UTF-16. -/
abbrev Wide := List UInt16

/-- The units of one code point. -/
def utf16Char (c : Nat) : Wide :=
  if c < 0x10000 then [.ofNat c]
  else [.ofNat (0xD800 + (c - 0x10000) / 0x400), .ofNat (0xDC00 + (c - 0x10000) % 0x400)]

/-- Is `c` half of a surrogate pair? -/
def isSurrogate (c : Nat) : Bool := 0xD800 ≤ c && c < 0xE000

/-- A conversion of UTF-8 to UTF-16. -/
structure Utf8Decoder where
  decode : Bytes → Wide
  /-- A unit takes a byte at least. -/
  length_le : ∀ bs, (decode bs).length ≤ bs.length
  /-- What follows a character is converted by itself. -/
  decode_append : ∀ c < 0x110000, ∀ bs, decode (utf8Char c ++ bs) = decode (utf8Char c) ++ decode bs
  decode_utf8Char : ∀ c < 0x110000, isSurrogate c = false → decode (utf8Char c) = utf16Char c
  /-- An unpaired surrogate becomes something. -/
  surrogate_ne_nil : ∀ c, isSurrogate c = true → decode (utf8Char c) ≠ []
  surrogate_ne : ∀ c, isSurrogate c = true → ∀ x ∈ decode (utf8Char c), x ≠ 0 ∧ x ≠ 0x40

/-! ## Joining surrogates -/

theorem joinSurrogates_cons_at (b : Text) :
    joinSurrogates (0x40 :: b) = 0x40 :: joinSurrogates b := by
  cases b with
  | nil => rfl
  | cons d cs =>
    rw [joinSurrogates, if_neg]
    simp [isHighSurrogate]

/-- No pair goes across an `@`. -/
theorem joinSurrogates_split (a b : Text) :
    joinSurrogates (a ++ 0x40 :: b) = joinSurrogates a ++ 0x40 :: joinSurrogates b := by
  induction a using joinSurrogates.induct with
  | case1 => exact joinSurrogates_cons_at b
  | case2 c =>
    have hpair : ¬ (isHighSurrogate c && isLowSurrogate 0x40) = true := by simp [isLowSurrogate]
    have hc : joinSurrogates [c] = [c] := rfl
    rw [hc, List.singleton_append, joinSurrogates, if_neg hpair, joinSurrogates_cons_at]
    rfl
  | case3 c d cs hpair ih =>
    rw [List.cons_append, List.cons_append, joinSurrogates, if_pos hpair, ih, joinSurrogates,
      if_pos hpair]
    rfl
  | case4 c d cs hpair ih =>
    rw [List.cons_append, List.cons_append, joinSurrogates, if_neg hpair, joinSurrogates,
      if_neg hpair, ← List.cons_append, ih]
    rfl

theorem at_notMem_joinSurrogates {t : Text} (hat : 0x40 ∉ t) : 0x40 ∉ joinSurrogates t := by
  induction t using joinSurrogates.induct with
  | case1 => exact hat
  | case2 c => exact hat
  | case3 c d cs hpair ih =>
    rw [joinSurrogates, if_pos hpair, List.mem_cons, not_or]
    refine ⟨by omega, ih fun h ↦ hat ?_⟩
    exact List.mem_cons_of_mem _ (List.mem_cons_of_mem _ h)
  | case4 c d cs hpair ih =>
    rw [joinSurrogates, if_neg hpair, List.mem_cons, not_or]
    exact ⟨fun h ↦ hat (by simp [h]), ih fun h ↦ hat (List.mem_cons_of_mem _ h)⟩

theorem joinSurrogates_ne_nil {t : Text} (hne : t ≠ []) : joinSurrogates t ≠ [] := by
  match t with
  | [] => exact absurd rfl hne
  | [c] => exact hne
  | c :: d :: cs =>
    rw [joinSurrogates]
    split <;> exact List.cons_ne_nil _ _

namespace Utf8Decoder

variable (dec : Utf8Decoder)

/-- A text in the memory of the consumers. -/
def wide (t : Text) : Wide := dec.decode (encodeUtf8 t)

@[simp] theorem decode_nil : dec.decode [] = [] :=
  List.length_eq_zero_iff.mp (Nat.le_zero.mp (dec.length_le []))

@[simp] theorem wide_nil : dec.wide [] = [] := dec.decode_nil

/-- The units of a character are not NUL, and none is an `@` but the `@` itself. -/
theorem mem_decode_utf8Char {c : Nat} (hc : IsChar c) {x : UInt16}
    (hx : x ∈ dec.decode (utf8Char c)) : x ≠ 0 ∧ (c ≠ 0x40 → x ≠ 0x40) := by
  by_cases hs : isSurrogate c = true
  · obtain ⟨h0, hat⟩ := dec.surrogate_ne c hs x hx
    exact ⟨h0, fun _ ↦ hat⟩
  · have hne : ∀ n, 0 < n → n < 2 ^ 16 → UInt16.ofNat n ≠ 0 := by
      intro n hpos hlt h
      have := congrArg UInt16.toNat h
      rw [UInt16.toNat_ofNat', UInt16.toNat_zero] at this
      omega
    have hat : ∀ n, n ≠ 0x40 → n < 2 ^ 16 → UInt16.ofNat n ≠ 0x40 := by
      intro n hn hlt h
      have hmod := congrArg UInt16.toNat h
      rw [UInt16.toNat_ofNat', show UInt16.toNat 0x40 = 0x40 from rfl] at hmod
      omega
    obtain ⟨hpos, hlt⟩ := hc
    rw [dec.decode_utf8Char c hlt (by simpa using hs), utf16Char] at hx
    split at hx
    · rw [List.mem_singleton] at hx
      subst hx
      exact ⟨hne _ hpos (by omega), fun h ↦ hat _ h (by omega)⟩
    · simp only [List.mem_cons, List.not_mem_nil, or_false] at hx
      rcases hx with rfl | rfl <;>
        exact ⟨hne _ (by omega) (by omega), fun _ ↦ hat _ (by omega) (by omega)⟩

theorem decode_utf8Char_ne_nil {c : Nat} (hc : IsChar c) : dec.decode (utf8Char c) ≠ [] := by
  by_cases hs : isSurrogate c = true
  · exact dec.surrogate_ne_nil c hs
  · rw [dec.decode_utf8Char c hc.2 (by simpa using hs), utf16Char]
    split <;> exact List.cons_ne_nil _ _

/-- Text is converted character by character, whatever follows it. -/
theorem decode_flatMap {t : Text} (ht : ∀ c ∈ t, c < 0x110000) (bs : Bytes) :
    dec.decode (t.flatMap utf8Char ++ bs) =
      t.flatMap (fun c ↦ dec.decode (utf8Char c)) ++ dec.decode bs := by
  induction t with
  | nil => rfl
  | cons c t ih =>
    rw [List.flatMap_cons, List.flatMap_cons, List.append_assoc,
      dec.decode_append c (ht c (by simp)), ih fun d hd ↦ ht d (by simp [hd]), List.append_assoc]

section Text

variable {t : Text} (ht : ∀ c ∈ t, IsChar c)
include ht

theorem wide_eq_flatMap :
    dec.wide t = (joinSurrogates t).flatMap fun c ↦ dec.decode (utf8Char c) := by
  have h := dec.decode_flatMap (fun c hc ↦ (isChar_of_mem_joinSurrogates ht c hc).2) []
  simpa [wide, encodeUtf8] using h

/-- What is converted after a text. -/
theorem decode_encodeUtf8_append (bs : Bytes) :
    dec.decode (encodeUtf8 t ++ bs) = dec.wide t ++ dec.decode bs := by
  rw [encodeUtf8, dec.decode_flatMap (fun c hc ↦ (isChar_of_mem_joinSurrogates ht c hc).2),
    dec.wide_eq_flatMap ht]

/-- **Text without unpaired surrogates becomes its UTF-16.** -/
theorem wide_eq_utf16 (hs : ∀ c ∈ joinSurrogates t, isSurrogate c = false) :
    dec.wide t = (joinSurrogates t).flatMap utf16Char := by
  rw [dec.wide_eq_flatMap ht]
  refine List.flatMap_congr fun c hc ↦ ?_
  exact dec.decode_utf8Char c (isChar_of_mem_joinSurrogates ht c hc).2 (hs c hc)

theorem wide_ne_zero : ∀ x ∈ dec.wide t, x ≠ 0 := by
  intro x hx
  rw [dec.wide_eq_flatMap ht] at hx
  obtain ⟨c, hc, hx⟩ := List.mem_flatMap.mp hx
  exact (dec.mem_decode_utf8Char (isChar_of_mem_joinSurrogates ht c hc) hx).1

theorem wide_ne_at (hat : 0x40 ∉ t) : ∀ x ∈ dec.wide t, x ≠ 0x40 := by
  intro x hx
  rw [dec.wide_eq_flatMap ht] at hx
  obtain ⟨c, hc, hx⟩ := List.mem_flatMap.mp hx
  refine (dec.mem_decode_utf8Char (isChar_of_mem_joinSurrogates ht c hc) hx).2 ?_
  rintro rfl
  exact at_notMem_joinSurrogates hat hc

theorem wide_ne_nil (hne : t ≠ []) : dec.wide t ≠ [] := by
  obtain ⟨c, cs, hjoin⟩ := List.exists_cons_of_ne_nil (joinSurrogates_ne_nil hne)
  have hc := isChar_of_mem_joinSurrogates ht c (by simp [hjoin])
  rw [dec.wide_eq_flatMap ht, hjoin, List.flatMap_cons]
  exact fun h ↦ dec.decode_utf8Char_ne_nil hc (List.append_eq_nil_iff.mp h).1

end Text

/-- **An `@` splits what a text becomes where it splits the text.** -/
theorem wide_split {a b : Text} (ha : ∀ c ∈ a, IsChar c) (hb : ∀ c ∈ b, IsChar c) :
    dec.wide (a ++ 0x40 :: b) = dec.wide a ++ 0x40 :: dec.wide b := by
  have hall : ∀ c ∈ a ++ 0x40 :: b, IsChar c := by
    intro c hc
    rcases List.mem_append.mp hc with hc | hc
    · exact ha c hc
    · rcases List.mem_cons.mp hc with rfl | hc
      · decide
      · exact hb c hc
  have hat : dec.decode (utf8Char 0x40) = [0x40] := dec.decode_utf8Char 0x40 (by decide) (by decide)
  rw [dec.wide_eq_flatMap hall, joinSurrogates_split, List.flatMap_append, List.flatMap_cons, hat,
    dec.wide_eq_flatMap ha, dec.wide_eq_flatMap hb]
  rfl

end Utf8Decoder

/-! ## A conversion -/

/-- The first character of some bytes, with the number of bytes it has after the first. -/
def firstChar : Bytes → Option (Nat × Nat)
  | [] => none
  | b :: bs =>
    if b.toNat < 0x80 then some (b.toNat, 0)
    else if 0xC2 ≤ b.toNat && b.toNat < 0xE0 then
      match bs with
      | c :: _ =>
        if isContinuation c then some ((b.toNat - 0xC0) * 0x40 + (c.toNat - 0x80), 1) else none
      | _ => none
    else if 0xE0 ≤ b.toNat && b.toNat < 0xF0 then
      match bs with
      | c :: d :: _ =>
        let x := (b.toNat - 0xE0) * 0x1000 + (c.toNat - 0x80) * 0x40 + (d.toNat - 0x80)
        if isContinuation c && isContinuation d && 0x800 ≤ x && !isSurrogate x then some (x, 2)
        else none
      | _ => none
    else if 0xF0 ≤ b.toNat && b.toNat < 0xF5 then
      match bs with
      | c :: d :: e :: _ =>
        let x := (b.toNat - 0xF0) * 0x40000 + (c.toNat - 0x80) * 0x1000 + (d.toNat - 0x80) * 0x40 +
          (e.toNat - 0x80)
        if isContinuation c && isContinuation d && isContinuation e && 0x10000 ≤ x &&
            x < 0x110000 then some (x, 3)
        else none
      | _ => none
    else none

/-- The UTF-16 of some bytes, after the first `k` of them. -/
def decodeReplacing : ℕ → Bytes → Wide
  | _, [] => []
  | k + 1, _ :: bs => decodeReplacing k bs
  | 0, b :: bs =>
    match firstChar (b :: bs) with
    | some (c, k) => utf16Char c ++ decodeReplacing k bs
    | none => 0xFFFD :: decodeReplacing 0 bs

section Replacing

theorem length_utf16Char_le (c : ℕ) : (utf16Char c).length ≤ 2 := by
  rw [utf16Char]
  split <;> simp

theorem length_utf16Char_of_lt {c : ℕ} (hc : c < 0x10000) : (utf16Char c).length = 1 := by
  rw [utf16Char, if_pos hc]
  rfl

/-- A character is complete, and has as many bytes at least as it has units. -/
theorem firstChar_spec {b : UInt8} {bs : Bytes} {c k : ℕ} (h : firstChar (b :: bs) = some (c, k)) :
    k ≤ bs.length ∧ (utf16Char c).length ≤ k + 1 := by
  have hlen := length_utf16Char_le c
  have hb := b.toNat_lt
  simp only [firstChar] at h
  split at h
  · obtain ⟨hc, rfl⟩ := Prod.mk.inj (Option.some.inj h)
    exact ⟨Nat.zero_le _, (length_utf16Char_of_lt (by omega)).le⟩
  · split at h
    · split at h
      · split at h
        · obtain ⟨-, rfl⟩ := Prod.mk.inj (Option.some.inj h)
          exact ⟨by simp, hlen⟩
        · cases h
      · cases h
    · split at h
      · split at h
        · split at h
          · obtain ⟨-, rfl⟩ := Prod.mk.inj (Option.some.inj h)
            exact ⟨by simp, hlen.trans (by decide)⟩
          · cases h
        · cases h
      · split at h
        · split at h
          · split at h
            · obtain ⟨-, rfl⟩ := Prod.mk.inj (Option.some.inj h)
              exact ⟨by simp, hlen.trans (by decide)⟩
            · cases h
          · cases h
        · cases h

theorem length_decodeReplacing (k : ℕ) (bs : Bytes) :
    (decodeReplacing k bs).length ≤ bs.length - k := by
  induction bs generalizing k with
  | nil => simp [decodeReplacing]
  | cons b bs ih =>
    cases k with
    | succ k =>
      have := ih k
      simpa [decodeReplacing] using this
    | zero =>
      rw [decodeReplacing]
      split
      · rename_i c k hfirst
        obtain ⟨hk, hc⟩ := firstChar_spec hfirst
        have := ih k
        rw [List.length_append, List.length_cons]
        omega
      · have := ih 0
        rw [List.length_cons, List.length_cons]
        omega

theorem decodeReplacing_append (as bs : Bytes) :
    decodeReplacing as.length (as ++ bs) = decodeReplacing 0 bs := by
  induction as with
  | nil => rfl
  | cons a as ih => exact ih

theorem isContinuation_ofNat {n : ℕ} (h : n < 0x40) :
    isContinuation (.ofNat (0x80 + n)) = true := by
  have hn : (UInt8.ofNat (0x80 + n)).toNat = 0x80 + n := by
    rw [UInt8.toNat_ofNat']
    omega
  have hlt : 0x80 + n < 0xC0 := by omega
  simp only [isContinuation, Bool.and_eq_true, decide_eq_true_eq, UInt8.le_iff_toNat_le,
    UInt8.lt_iff_toNat_lt, hn]
  exact ⟨Nat.le_add_right _ _, hlt⟩

theorem toNat_ofNat_of_lt {n : ℕ} (h : n < 0x100) : (UInt8.ofNat n).toNat = n := by
  rw [UInt8.toNat_ofNat']
  omega

/-- The first character of an encoding is what was encoded. -/
theorem firstChar_utf8Char {c : ℕ} (hc : c < 0x110000) (hs : isSurrogate c = false) (bs : Bytes) :
    firstChar (utf8Char c ++ bs) = some (c, (utf8Char c).length - 1) := by
  have hcont {n : ℕ} : (UInt8.ofNat (0x80 + n % 0x40)).toNat = 0x80 + n % 0x40 :=
    toNat_ofNat_of_lt (by omega)
  have hcont' {n : ℕ} : isContinuation (.ofNat (0x80 + n % 0x40)) = true :=
    isContinuation_ofNat (by omega)
  rw [utf8Char]
  by_cases h1 : c < 0x80
  · simp only [if_pos h1, firstChar, List.singleton_append]
    rw [toNat_ofNat_of_lt (by omega), if_pos h1]
    rfl
  · by_cases h2 : c < 0x800
    · simp only [if_neg h1, if_pos h2, firstChar, List.cons_append, List.nil_append, hcont, hcont']
      have hvalue : (0xC0 + c / 0x40 - 0xC0) * 0x40 + (0x80 + c % 0x40 - 0x80) = c := by omega
      rw [toNat_ofNat_of_lt (by omega), if_neg (by omega), if_pos (by simp; omega), if_pos trivial,
        hvalue]
      rfl
    · by_cases h3 : c < 0x10000
      · simp only [if_neg h1, if_neg h2, if_pos h3, firstChar, List.cons_append, List.nil_append,
          hcont, hcont']
        have hvalue : (0xE0 + c / 0x1000 - 0xE0) * 0x1000 + (0x80 + c / 0x40 % 0x40 - 0x80) * 0x40 +
            (0x80 + c % 0x40 - 0x80) = c := by omega
        rw [toNat_ofNat_of_lt (by omega), if_neg (by omega), if_neg (by simp),
          if_pos (by simp; omega), hvalue, hs, if_pos (by simpa using h2)]
        rfl
      · simp only [if_neg h1, if_neg h2, if_neg h3, firstChar, List.cons_append, List.nil_append,
          hcont, hcont']
        have hvalue : (0xF0 + c / 0x40000 - 0xF0) * 0x40000 +
            (0x80 + c / 0x1000 % 0x40 - 0x80) * 0x1000 + (0x80 + c / 0x40 % 0x40 - 0x80) * 0x40 +
            (0x80 + c % 0x40 - 0x80) = c := by omega
        rw [toNat_ofNat_of_lt (by omega), if_neg (by omega), if_neg (by simp; omega),
          if_neg (by simp), if_pos (by simp; omega), hvalue, if_pos (by simp; omega)]
        rfl

/-- No character starts with a continuation byte. -/
theorem firstChar_continuation (n : ℕ) (bs : Bytes) :
    firstChar (.ofNat (0x80 + n % 0x40) :: bs) = none := by
  have hn : (UInt8.ofNat (0x80 + n % 0x40)).toNat = 0x80 + n % 0x40 :=
    toNat_ofNat_of_lt (by omega)
  simp only [firstChar, hn]
  rw [if_neg (by omega), if_neg (by simp; omega), if_neg (by simp; omega), if_neg (by simp; omega)]

/-- The bytes of an unpaired surrogate are replaced one by one. -/
theorem decodeReplacing_surrogate {c : ℕ} (hs : isSurrogate c = true) (bs : Bytes) :
    decodeReplacing 0 (utf8Char c ++ bs) = [0xFFFD, 0xFFFD, 0xFFFD] ++ decodeReplacing 0 bs := by
  have hs' := hs
  simp only [isSurrogate, Bool.and_eq_true, decide_eq_true_eq] at hs'
  have hcont {n : ℕ} : (UInt8.ofNat (0x80 + n % 0x40)).toNat = 0x80 + n % 0x40 :=
    toNat_ofNat_of_lt (by omega)
  have hvalue : (0xE0 + c / 0x1000 - 0xE0) * 0x1000 + (0x80 + c / 0x40 % 0x40 - 0x80) * 0x40 +
      (0x80 + c % 0x40 - 0x80) = c := by omega
  have hfirst : firstChar (.ofNat (0xE0 + c / 0x1000) :: .ofNat (0x80 + c / 0x40 % 0x40) ::
      .ofNat (0x80 + c % 0x40) :: bs) = none := by
    simp only [firstChar, hcont]
    rw [toNat_ofNat_of_lt (by omega), if_neg (by omega), if_neg (by simp),
      if_pos (by simp; omega), hvalue, hs, if_neg (by simp)]
  rw [utf8Char, if_neg (by omega), if_neg (by omega), if_pos (by omega)]
  simp only [List.cons_append, List.nil_append]
  rw [decodeReplacing, hfirst]
  simp only
  rw [decodeReplacing, firstChar_continuation]
  simp only
  rw [decodeReplacing, firstChar_continuation]

theorem decodeReplacing_utf8Char {c : ℕ} (hc : c < 0x110000) (hs : isSurrogate c = false)
    (bs : Bytes) :
    decodeReplacing 0 (utf8Char c ++ bs) = utf16Char c ++ decodeReplacing 0 bs := by
  have hfirst := firstChar_utf8Char hc hs bs
  obtain ⟨b, as, hcons⟩ : ∃ b as, utf8Char c = b :: as := by
    simp only [utf8Char]
    split_ifs <;> exact ⟨_, _, rfl⟩
  rw [hcons, List.length_cons, Nat.add_sub_cancel] at hfirst
  rw [hcons, List.cons_append, decodeReplacing, ← List.cons_append, hfirst]
  exact congrArg (utf16Char c ++ ·) (decodeReplacing_append as bs)

/-- The conversion that replaces what is not UTF-8. -/
def replacing : Utf8Decoder where
  decode := decodeReplacing 0
  length_le bs := length_decodeReplacing 0 bs
  decode_append c hc bs := by
    by_cases hs : isSurrogate c = true
    · have h := decodeReplacing_surrogate hs []
      rw [List.append_nil] at h
      rw [decodeReplacing_surrogate hs, h]
      rfl
    · have h := decodeReplacing_utf8Char hc (by simpa using hs) []
      rw [List.append_nil] at h
      rw [decodeReplacing_utf8Char hc (by simpa using hs), h]
      simp [decodeReplacing]
  decode_utf8Char c hc hs := by
    have h := decodeReplacing_utf8Char hc hs []
    rw [List.append_nil] at h
    rw [h]
    simp [decodeReplacing]
  surrogate_ne_nil c hs := by
    have h := decodeReplacing_surrogate hs []
    rw [List.append_nil] at h
    rw [h]
    exact List.cons_ne_nil _ _
  surrogate_ne c hs := by
    have h := decodeReplacing_surrogate hs []
    rw [List.append_nil] at h
    rw [h]
    simp [decodeReplacing]

end Replacing

end GuestAgent
