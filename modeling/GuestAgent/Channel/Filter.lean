import GuestAgent.Python.Utf8

/-!
# What may not be sent

The host keeps what the agent reports in XML documents, and an XML document cannot contain every
character.  Before a message is written, `_filter_object` goes through it and makes a Unicode string
of each string in it, dict keys included, with every character XML does not allow replaced by
U+FFFD.

A byte string is decoded in the encoding of the locale, which is a parameter here: `Locale` has the
two ways the agent decodes in, and says of the encoding only that the names of messages are written
in it the way they are in ASCII.
-/

set_option autoImplicit false

namespace GuestAgent

/-! ## Characters -/

/-- `__REPLACEMENT_CHAR`. -/
def replacementChar : Nat := 0xFFFD

/-- Is the code point one of `__RESTRICTED_CHARS`? -/
def isRestrictedChar (c : Nat) : Bool :=
  c ≤ 8 || (0xB ≤ c && c ≤ 0xC) || (0xE ≤ c && c ≤ 0x1F) || (0x7F ≤ c && c ≤ 0x84) ||
    (0x86 ≤ c && c ≤ 0x9F)

/-- `filter_xml_char`.  The category `Cs` is that of the surrogates. -/
def filterXmlChar (c : Nat) : Nat :=
  if c > 0x10FFFF then replacementChar
  else if isHighSurrogate c || isLowSurrogate c then replacementChar
  else if c = 0xFFFE ∨ c = 0xFFFF then replacementChar
  else if isRestrictedChar c then replacementChar
  else c

/-- `_filter_xml_chars`.  Joining no characters at all gives `''`, which is a byte string. -/
def filterXmlChars : Text → PyStr
  | [] => .str []
  | t => .unicode (t.map filterXmlChar)

/-! ## Strings -/

/-- Is it one of the characters the names of messages are made of? -/
def isNameByte (b : UInt8) : Bool := (0x61 ≤ b && b ≤ 0x7A) || b == 0x2D || b == 0x5F

theorem toNat_bounds_of_isNameByte {b : UInt8} (h : isNameByte b) :
    0x20 ≤ b.toNat ∧ b.toNat < 0x7F := by
  simp only [isNameByte, Bool.or_eq_true, Bool.and_eq_true, decide_eq_true_eq, beq_iff_eq,
    UInt8.le_iff_toNat_le] at h
  rcases h with (⟨hlow, hhigh⟩ | rfl) | rfl
  · exact ⟨hlow.trans' (by decide), hhigh.trans_lt (by decide)⟩
  · decide
  · decide

/-- The encoding `locale.getpreferredencoding()`. -/
structure Locale where
  /-- `b.decode(encoding, 'strict')`, or nothing where it raises `UnicodeError`. -/
  strict : Bytes → Option Text
  /-- `b.decode(encoding, 'replace')`. -/
  replace : Bytes → Option Text
  strict_name : ∀ b : Bytes, b.all isNameByte → strict b = some (b.map UInt8.toNat)

/-- The encoding `ANSI_X3.4-1968`, that of the locale `C`. -/
def Locale.ascii : Locale where
  strict b := if b.all (· < 128) then some (b.map UInt8.toNat) else none
  replace b := some (b.map fun x ↦ if x < 128 then x.toNat else replacementChar)
  strict_name b hb := by
    have hascii : b.all (· < 128) := by
      rw [List.all_eq_true] at hb ⊢
      intro x hx
      have hlt := (toNat_bounds_of_isNameByte (hb x hx)).2
      rw [decide_eq_true_eq, UInt8.lt_iff_toNat_lt]
      exact hlt.trans (by decide)
    rw [if_pos hascii]

variable (locale : Locale)

/-- `_string_convert`. -/
def stringConvert : PyStr → Text
  | .unicode t => t
  | .str b =>
    match locale.strict b with
    | some t => t
    | none =>
      match locale.replace b with
      | some t => t
      | none => u "????"

/-- What becomes of a string. -/
def filterString (s : PyStr) : PyStr := filterXmlChars (stringConvert locale s)

/-! ## Objects -/

mutual

/-- `_filter_object`. -/
def filterObject : PyObj → PyObj
  | .dict kvs => .dict (Dict.ofItems (filterItems kvs))
  | .list xs => .list (filterObjects xs)
  | .tuple xs => .tuple (filterObjects xs)
  | .str s => .str (filterString locale s)
  | .none => .none
  | .bool b => .bool b
  | .int n => .int n
  | .float x => .float x

/-- `map(filt, xs)`. -/
def filterObjects : List PyObj → List PyObj
  | [] => []
  | x :: xs => filterObject x :: filterObjects xs

/-- `map(filt, d.iteritems())`. -/
def filterItems : List (PyStr × PyObj) → List (PyStr × PyObj)
  | [] => []
  | item :: items => filterItem item :: filterItems items

/-- An item of a dict is a tuple, and its key is a string. -/
def filterItem : PyStr × PyObj → PyStr × PyObj
  | (k, v) => (filterString locale k, filterObject v)

end

/-! ## What the filter does to a dict that is about to be sent -/

variable {locale}

theorem filterItems_eq_map (items : List (PyStr × PyObj)) :
    filterItems locale items = items.map (filterItem locale) := by
  induction items with
  | nil => rfl
  | cons item items ih => rw [filterItems, ih, List.map_cons]

/-- The printable characters of ASCII are allowed. -/
theorem filterXmlChar_of_printable {c : Nat} (hlow : 0x20 ≤ c) (hhigh : c < 0x7F) :
    filterXmlChar c = c := by
  have hhs : isHighSurrogate c = false := by
    simp [isHighSurrogate]
    omega
  have hls : isLowSurrogate c = false := by
    simp [isLowSurrogate]
    omega
  have hres : isRestrictedChar c = false := by
    simp [isRestrictedChar]
    omega
  rw [filterXmlChar, if_neg (by omega), hhs, hls, if_neg (by decide), if_neg (by omega), hres,
    if_neg (by decide)]

/-- The name of a message passes the filter unchanged. -/
theorem filterString_name {b : Bytes} (hne : b ≠ []) (h : b.all isNameByte) :
    filterString locale (.str b) = .unicode (b.map UInt8.toNat) := by
  have hmap : (b.map UInt8.toNat).map filterXmlChar = b.map UInt8.toNat := by
    rw [List.map_map]
    refine List.map_congr_left fun x hx ↦ ?_
    obtain ⟨hlow, hhigh⟩ := toNat_bounds_of_isNameByte (List.all_eq_true.mp h x hx)
    exact filterXmlChar_of_printable hlow hhigh
  have hconvert : stringConvert locale (.str b) = b.map UInt8.toNat := by
    rw [stringConvert, locale.strict_name b h]
  rw [filterString, hconvert, filterXmlChars, hmap]
  exact fun hnil ↦ hne (List.map_eq_nil_iff.mp hnil)

/-- A key that stays apart from the others is filtered next to them. -/
theorem filterObject_set {args : Dict} {k : PyStr} (habsent : args.Absent k)
    (hapart : ∀ item ∈ args, (filterString locale item.1).eq (filterString locale k) = false)
    (v : PyObj) : filterObject locale (.dict (args.set k v)) =
      .dict (Dict.ofItems (filterItems locale args) ++
        [(filterString locale k, filterObject locale v)]) := by
  have habsent' : (Dict.ofItems (filterItems locale args)).Absent (filterString locale k) := by
    refine Dict.absent_ofItems ?_
    rw [filterItems_eq_map, List.forall_mem_map]
    rintro ⟨k', w⟩ hitem
    rw [filterItem]
    exact hapart _ hitem
  rw [Dict.set_of_absent habsent, filterObject, filterItems_eq_map, List.map_append,
    ← filterItems_eq_map, List.map_singleton, Dict.ofItems_concat, filterItem,
    Dict.set_of_absent habsent']

end GuestAgent
